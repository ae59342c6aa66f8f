import Terminfo.Sink

set_option autoImplicit false

namespace Terminfo

structure Rationed where
  fd : Descriptor
  chunk : Option Nat := none
  room : Option Nat := none
  /-- Without room the stream takes nothing, where it would otherwise fail. -/
  takesNothing : Bool := false
  interrupts : Nat := 0
  flushFailures : Nat := 0
  deriving DecidableEq, Repr

namespace Rationed

def portion (w : Rationed) (length : Nat) : Nat :=
  min (min length (w.chunk.getD length)) (w.room.getD length)

def write (w : Rationed) (b : Bytes) : WriteOutcome × Rationed :=
  if w.interrupts ≠ 0 then (.interrupted, { w with interrupts := w.interrupts - 1 })
  else if w.portion b.length = 0 ∧ !w.takesNothing then (.failed (.other "sink full"), w)
  else (.took (w.portion b.length), { w with room := w.room.map (· - w.portion b.length) })

def flush (w : Rationed) : Option IoError × Rationed :=
  if w.flushFailures = 0 then (none, w)
  else (some (.other "flush refused"), { w with flushFailures := w.flushFailures - 1 })

instance : Sink Rationed where
  descriptor := fd
  write := write
  flush := flush
  patience := interrupts
  took_le {w b n} h := by
    unfold write at h
    split at h
    · simp at h
    · split at h
      · simp at h
      · obtain rfl := WriteOutcome.took.inj h
        exact Nat.le_trans (Nat.min_le_left _ _) (Nat.min_le_left _ _)
  patience_lt {w b} h := by
    unfold write at h ⊢
    split at h
    · rw [if_pos ‹_›]
      exact Nat.sub_lt (Nat.pos_of_ne_zero ‹_›) Nat.one_pos
    · split at h <;> simp at h
  descriptor_write w b := by
    unfold write
    split
    · rfl
    · split <;> rfl
  descriptor_flush w := by
    unfold flush
    split <;> rfl

end Rationed

end Terminfo
