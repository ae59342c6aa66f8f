import Terminfo.Fleet
import Terminfo.Terminal

set_option autoImplicit false

namespace Terminfo

variable {ω α β : Type}

/-- The sessions that a thread has to itself, by their names. -/
abbrev Own := List (String × Session)

def Own.session (own : Own) (name : String) : Session := (own.lookup name).getD {}

/-- One call of a thread. What it shares with others it only reads; with sessions of its own it may do
anything. -/
inductive Errand (ω : Type)
  | ask (s : Session) (query : Query)
  | controlString (t : Terminal ω) (name : String) (parameters : List Int64)
  | controlStringAffecting (t : Terminal ω) (lines : Int32) (name : String)
      (parameters : List Int64)
  | create (name : String)
  | establish (name : String) (term : Option String) (fd : Descriptor)
  | init (name : String) (term : Option String) (fd : Descriptor)
  | askOwn (name : String) (query : Query)
  | retire (name : String)

namespace Errand

def program (h : Host) (own : Own) : Errand ω → Guarded (Answer × Own)
  | .ask s query => do pure (← s.ask query, own)
  | .controlString t name parameters => do
    pure ((← t.controlString name parameters).map .bytes, own)
  | .controlStringAffecting t lines name parameters => do
    pure ((← t.controlStringAffecting lines name parameters).map .bytes, own)
  | .create name => pure (.ok .unit, (name, {}) :: own)
  | .establish name term fd => do
    match ← Session.establish h term fd with
    | .error e => pure (.error e, own)
    | .ok s => pure (.ok (.integer s.diagnostic), (name, s) :: own)
  | .init name term fd =>
    match own.lookup name with
    | none => pure (.ok .unit, own)
    | some s => do
      let (result, s) ← s.init h term fd
      pure (result.map .integer, Fleet.replace name s own)
  | .askOwn name query => do pure (← (own.session name).ask query, own)
  | .retire name => do
    (own.session name).retire
    pure (.ok .unit, Fleet.without name own)

def all (h : Host) : Own → List (Errand ω) → Guarded (List Answer)
  | _, [] => pure []
  | own, e :: errands => do
    let (answer, own) ← e.program h own
    pure (answer :: (← all h own errands))

end Errand

structure Crew (α : Type) where
  board : Switchboard
  threads : List (Guarded α)

namespace Crew

def step (crew : Crew α) (i : Nat) : Crew α :=
  match crew.threads[i]? with
  | some (.hold effect next) =>
    { board := effect crew.board, threads := crew.threads.set i (next crew.board) }
  | _ => crew

def runAll (crew : Crew α) (schedule : List Nat) : Crew α := schedule.foldl step crew

structure Member (ω : Type) where
  own : Own
  errands : List (Errand ω)

def Member.program (h : Host) (m : Member ω) : Guarded (List Answer) := Errand.all h m.own m.errands

def start (f : Fleet) (members : List (Member ω)) : Crew (List Answer) where
  board := f.board
  threads := members.map (·.program f.host)

end Crew

end Terminfo
