import Terminfo.Error
import Terminfo.WindowSize

set_option autoImplicit false

namespace Terminfo

abbrev Descriptor := Int32

/-- What is behind a descriptor. Both ends of a pseudo-terminal are the same tty. -/
inductive Device
  | file
  | pipe
  | tty (line : Nat)
  deriving DecidableEq, Repr

structure Tty where
  window : WindowRecord := ⟨0, 0, 0, 0⟩
  speed : Int32 := 0
  deriving DecidableEq, Repr

structure Devices where
  opened : List (Descriptor × Device) := []
  tty : Nat → Tty := fun _ ↦ {}

namespace Devices

def line (d : Devices) (fd : Descriptor) : Except IoError Nat :=
  match d.opened.lookup fd with
  | none => .error (.system SystemError.badDescriptor)
  | some .file | some .pipe => .error (.system SystemError.notTerminal)
  | some (.tty line) => .ok line

def tty? (d : Devices) (fd : Descriptor) : Option Tty := (d.line fd).toOption.map d.tty

def setWindow (d : Devices) (line : Nat) (window : WindowRecord) : Devices where
  opened := d.opened
  tty other := if other = line then { d.tty line with window } else d.tty other

theorem line_setWindow (d : Devices) (line : Nat) (window : WindowRecord) (fd : Descriptor) :
    (d.setWindow line window).line fd = d.line fd := rfl

theorem window_setWindow_self (d : Devices) (line : Nat) (window : WindowRecord) :
    ((d.setWindow line window).tty line).window = window := by
  simp [setWindow]

theorem tty_setWindow_of_ne (d : Devices) {line other : Nat} (window : WindowRecord)
    (h : other ≠ line) : (d.setWindow line window).tty other = d.tty other := if_neg h

end Devices

namespace WindowSize

/-- The error for a refused request. A driver without the request says so by two of its numbers. -/
def refusal : IoError → Error
  | .system code =>
    if code = SystemError.notImplemented ∨ code = SystemError.notSupported then
      .windowSizeUnsupported
    else .windowSize (.system code)
  | cause => .windowSize cause

def getFrom (d : Devices) (fd : Descriptor) : Except Error WindowSize :=
  match d.line fd with
  | .error e => .error (refusal e)
  | .ok line => .ok (ofRecord (d.tty line).window)

def setOn (s : WindowSize) (d : Devices) (fd : Descriptor) : Except Error Unit × Devices :=
  match d.line fd with
  | .error e => (.error (refusal e), d)
  | .ok line => (.ok (), d.setWindow line s.toRecord)

end WindowSize

def windowSize (d : Devices) (fd : Descriptor) : Except Error (UInt16 × UInt16) :=
  (WindowSize.getFrom d fd).map fun s ↦ (s.rows, s.cols)

def setWindowSize (d : Devices) (fd : Descriptor) (rows cols : UInt16) :
    Except Error Unit × Devices :=
  WindowSize.setOn { rows, cols } d fd

end Terminfo
