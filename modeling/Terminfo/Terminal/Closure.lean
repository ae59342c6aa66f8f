import Terminfo.Terminal.Reading

set_option autoImplicit false

namespace Terminfo

variable {ω α : Type}

inductive Action (ω : Type)
  | control (name : String) (parameters : List Int64)
  | write (b : Bytes)
  | flush
  | read (r : Reading ω)
  | setEnv (name : String) (value : Option Bytes)
  | resize (fd : Descriptor) (rows cols : UInt16)

def Action.isFallible : Action ω → Bool
  | .control .. | .write _ | .flush => true
  | .read r => r.isFallible
  | .setEnv .. | .resize .. => false

inductive Exit (α : Type)
  | returned (a : α)
  | failed (e : Error)
  | aborted
  deriving DecidableEq, Repr

/-- A program that drives a terminal. What it does next may depend on every answer so far, and on
how an inner batch ended. It need not be aborted where an inner batch is. -/
inductive Closure (ω α : Type)
  | leave (exit : Exit α)
  | perform (action : Action ω) (next : Answer → Closure ω α)
  | batch (body : Closure ω α) (next : Exit α → Closure ω α)

inductive Event (α : Type)
  | accepted (b : Bytes)
  | delivered (d : Delivery)
  | answered (a : Answer)
  | entered
  | left (exit : Exit α)

structure Station (ω : Type) where
  host : Host
  board : Switchboard
  terminal : Terminal ω

namespace Station

variable [Sink ω]

def flush (s : Station ω) : Answer × Station ω × List (Event α) :=
  let (result, terminal, delivery) := s.terminal.flush
  (result.map fun () ↦ .unit, { s with terminal }, delivery.toList.map .delivered)

def write (s : Station ω) (b : Bytes) : Answer × Station ω × List (Event α) :=
  let (result, terminal, delivery) := s.terminal.write b
  (result.map fun () ↦ .unit, { s with terminal }, .accepted b :: delivery.toList.map .delivered)

def act (s : Station ω) : Action ω → Answer × Station ω × List (Event α)
  | .control name parameters =>
    match (s.terminal.controlString name parameters).run s.board with
    | (.error e, board) => (.error e, { s with board }, [])
    | (.ok b, board) => write { s with board } b
  | .write b => s.write b
  | .flush => s.flush
  | .read r =>
    let (answer, board) := (s.terminal.read s.host r).run s.board
    (answer, { s with board }, [])
  | .setEnv name value => (.ok .unit, { s with host := s.host.setEnv name value }, [])
  | .resize fd rows cols =>
    let (result, host) := s.host.resize fd rows cols
    (result.map fun () ↦ .unit, { s with host }, [])

omit [Sink ω] in
def atDepth (s : Station ω) (depth : Nat) : Station ω :=
  { s with terminal := { s.terminal with depth } }

/-- The end of a batch. The outermost one delivers what was held, whether its closure failed or not;
an aborted closure leaves it held. An error of the closure outweighs one of the delivery. -/
def settle (s : Station ω) (exit : Exit α) : Exit α × Station ω × List (Event α) :=
  if s.terminal.depth ≠ 0 ∨ exit matches .aborted then (exit, s, [])
  else
    let (result, terminal, delivery) := s.terminal.deliver
    let exit :=
      match exit, result with
      | .returned _, .error cause => .failed (.io cause)
      | exit, _ => exit
    (exit, { s with terminal }, [.delivered delivery])

end Station

namespace Closure

def run [Sink ω] : Closure ω α → Station ω → Exit α × Station ω × List (Event α)
  | .leave exit, s => (exit, s, [])
  | .perform action next, s =>
    let (answer, s, during) := s.act action
    let (exit, s, events) := (next answer).run s
    (exit, s, during ++ .answered answer :: events)
  | .batch body next, s =>
    let (inner, s, during) := body.run (s.atDepth (s.terminal.depth + 1))
    let (inner, s, atEnd) := (s.atDepth (s.terminal.depth - 1)).settle inner
    let (exit, s, events) := (next inner).run s
    (exit, s, .entered :: during ++ atEnd ++ .left inner :: events)

inductive Step (ω α : Type)
  | act (action : Action ω)
  | batch (body : Closure ω α)

/-- Carries out steps in order. A strict closure ends at the first fallible step that fails, and is
aborted with an inner batch; any other one goes on to its last step. -/
def ofSteps (strict : Bool) (last : Exit α) : List (Step ω α) → Closure ω α
  | [] => .leave last
  | .act action :: steps =>
    .perform action fun answer ↦
      match strict && action.isFallible, answer with
      | true, .error e => .leave (.failed e)
      | _, _ => ofSteps strict last steps
  | .batch body :: steps =>
    .batch body fun inner ↦
      match strict, inner with
      | true, .failed e => .leave (.failed e)
      | true, .aborted => .leave .aborted
      | _, _ => ofSteps strict last steps

end Closure

end Terminfo
