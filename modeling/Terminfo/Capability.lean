import Terminfo.Bytes
import Terminfo.Error

set_option autoImplicit false

namespace Terminfo

def notBoolean : Int32 := -1

def absentNumeric : Int32 := -1

def notNumeric : Int32 := -2

inductive Pointer
  | null
  /-- The name is not one of a string. No string lies at the last address of all. -/
  | last
  | to (bytes : Bytes)
  deriving DecidableEq, Repr

/-- What a terminal answers about a capability. Absent and canceled ones are both missing. -/
inductive Capability
  | boolean (value : Bool)
  | number (value : Int32)
  | string (value : Bytes)
  | missing
  | notThisType
  deriving DecidableEq, Repr

namespace Capability

def ofFlag (answer : Int32) : Capability :=
  if answer = notBoolean then .notThisType else .boolean (answer ≠ 0)

def ofNumber (answer : Int32) : Capability :=
  if answer = notNumeric then .notThisType
  else if answer = absentNumeric then .missing
  else .number answer

def ofString : Pointer → Capability
  | .last => .notThisType
  | .null => .missing
  | .to bytes => .string bytes

def mismatch (c : Capability) (name : String) (expected : Kind) : Error :=
  match c with
  | .missing => .absentOrCanceled name
  | _ => .wrongType name expected

def asFlag (c : Capability) (name : String) : Except Error Bool :=
  match c with
  | .boolean value => .ok value
  | c => .error (c.mismatch name .boolean)

def asNumber (c : Capability) (name : String) : Except Error Int32 :=
  match c with
  | .number value => .ok value
  | c => .error (c.mismatch name .numeric)

def asString (c : Capability) (name : String) : Except Error Bytes :=
  match c with
  | .string value => .ok value
  | c => .error (c.mismatch name .string)

end Capability

end Terminfo
