import Terminfo.Bytes
import Terminfo.Device

set_option autoImplicit false

namespace Terminfo

inductive WriteOutcome
  | took (n : Nat)
  | interrupted
  | failed (cause : IoError)
  deriving DecidableEq, Repr

/-- A stream that belongs to a descriptor and may take its bytes in any portions. It can be
interrupted only finitely often in a row. -/
class Sink (ω : Type) where
  descriptor : ω → Descriptor
  write : ω → Bytes → WriteOutcome × ω
  flush : ω → Option IoError × ω
  patience : ω → Nat
  took_le : ∀ {w : ω} {b : Bytes} {n : Nat}, (write w b).1 = .took n → n ≤ b.length
  patience_lt : ∀ {w : ω} {b : Bytes},
    (write w b).1 = .interrupted → patience (write w b).2 < patience w
  descriptor_write : ∀ (w : ω) (b : Bytes), descriptor (write w b).2 = descriptor w
  descriptor_flush : ∀ w : ω, descriptor (flush w).2 = descriptor w

inductive Call
  | write (offered : Bytes) (outcome : WriteOutcome)
  | flush (failure : Option IoError)
  deriving DecidableEq, Repr

namespace Call

def received : Call → Bytes
  | .write offered (.took n) => offered.take n
  | _ => []

end Call

structure Delivery where
  segment : Bytes
  calls : List Call
  deriving DecidableEq, Repr

namespace Delivery

def received (d : Delivery) : Bytes := d.calls.flatMap Call.received

end Delivery

namespace Sink

variable {ω : Type} [Sink ω]

/-- Offers the bytes again and again, less those that were taken, until all of them are. -/
def writeAll (w : ω) (b : Bytes) : Except IoError Unit × ω × List Call :=
  match b with
  | [] => (.ok (), w, [])
  | first :: rest =>
    let offered := first :: rest
    match h : (write w offered).1 with
    | .failed cause => (.error cause, (write w offered).2, [.write offered (.failed cause)])
    | .interrupted =>
      have _ := patience_lt h
      let (result, w', calls) := writeAll (write w offered).2 offered
      (result, w', .write offered .interrupted :: calls)
    | .took 0 => (.error .nothingTaken, (write w offered).2, [.write offered (.took 0)])
    | .took (n + 1) =>
      let (result, w', calls) := writeAll (write w offered).2 (rest.drop n)
      (result, w', .write offered (.took (n + 1)) :: calls)
termination_by (b.length, patience w)
decreasing_by
  · exact Prod.Lex.right _ ‹_›
  · exact Prod.Lex.left _ _ (Nat.lt_succ_of_le (by simp))

/-- Hands a segment to the stream and flushes it. An empty segment makes no write. -/
def deliver (w : ω) (segment : Bytes) : Except IoError Unit × ω × Delivery :=
  match writeAll w segment with
  | (.error cause, w, calls) => (.error cause, w, { segment, calls })
  | (.ok (), w, calls) =>
    match flush w with
    | (none, w) => (.ok (), w, { segment, calls := calls ++ [.flush none] })
    | (some cause, w) => (.error cause, w, { segment, calls := calls ++ [.flush (some cause)] })

end Sink

end Terminfo
