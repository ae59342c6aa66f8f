import Terminfo.Bytes

set_option autoImplicit false

namespace Terminfo.Padding

/-- A byte as the provider hands it over. The bytes above 127 come as negative numbers. -/
def signed (b : UInt8) : Int32 := b.toInt8.toInt32

def lowByte (ch : Int32) : UInt8 := ch.toInt8.toUInt8

theorem lowByte_signed (b : UInt8) : lowByte (signed b) = b := by
  simp [lowByte, signed]

def endOfFile : Int32 := -1

structure Binding where
  caller : Nat
  buffer : Bytes := []
  deriving DecidableEq, Repr

/-- The one place in the process through which the provider hands over padding output, bound only
while a call waits for it. -/
abbrev Outlet := Option Binding

namespace Outlet

def bind (caller : Nat) : Outlet := some { caller }

def receive (o : Outlet) (ch : Int32) : Int32 × Outlet :=
  match o with
  | none => (endOfFile, none)
  | some binding => (ch, some { binding with buffer := lowByte ch :: binding.buffer })

def emit (o : Outlet) (b : UInt8) : Outlet := (o.receive (signed b)).2

def collected (o : Outlet) : Bytes := (o.map (·.buffer.reverse)).getD []

theorem collected_foldl_emit (caller : Nat) (emitted : Bytes) :
    collected (emitted.foldl emit (bind caller)) = emitted := by
  suffices h : ∀ (bytes buffer : Bytes),
      bytes.foldl emit (some { caller, buffer }) =
        some { caller, buffer := bytes.reverse ++ buffer } by
    simp [bind, h, collected]
  intro bytes
  induction bytes with
  | nil => simp
  | cons b bytes ih => simp [emit, receive, lowByte_signed, ih]

end Outlet

end Terminfo.Padding
