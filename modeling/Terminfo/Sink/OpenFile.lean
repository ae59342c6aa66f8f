import Terminfo.Sink

set_option autoImplicit false

namespace Terminfo

structure OpenFile where
  fd : Descriptor
  contents : Bytes := []
  deriving DecidableEq, Repr

namespace OpenFile

instance : Sink OpenFile where
  descriptor := fd
  write w b := (.took b.length, { w with contents := w.contents ++ b })
  flush w := (none, w)
  patience _ := 0
  took_le h := Nat.le_of_eq (WriteOutcome.took.inj h).symm
  patience_lt h := by simp at h
  descriptor_write _ _ := rfl
  descriptor_flush _ := rfl

def contentsOf (w : OpenFile) (fd : Descriptor) : Bytes := if w.fd = fd then w.contents else []

end OpenFile

end Terminfo
