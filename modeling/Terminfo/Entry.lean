import Terminfo.Capability
import Terminfo.Kind.Names

set_option autoImplicit false

namespace Terminfo

inductive Setting (α : Type)
  | value (a : α)
  | canceled
  deriving DecidableEq, Repr

namespace Setting

variable {α : Type}

def value? : Setting α → Option α
  | .value a => some a
  | .canceled => none

theorem bind_value?_eq_some_iff {s : Option (Setting α)} {a : α} :
    s.bind value? = some a ↔ s = some (.value a) := by
  cases s with
  | none => simp
  | some s => cases s <;> simp [value?]

theorem bind_value?_eq_none_iff {s : Option (Setting α)} :
    s.bind value? = none ↔ ∀ a, s ≠ some (.value a) := by
  cases s with
  | none => simp
  | some s => cases s <;> simp [value?]

end Setting

structure Entry where
  flags : List (String × Setting Bool) := []
  numbers : List (String × Setting Int32) := []
  strings : List (String × Setting Bytes) := []
  deriving DecidableEq, Repr

namespace Entry

def mentions (e : Entry) (kind : Kind) (name : String) : Bool :=
  match kind with
  | .boolean => (e.flags.lookup name).isSome
  | .numeric => (e.numbers.lookup name).isSome
  | .string => (e.strings.lookup name).isSome

/-- A standard name is in one table, in every entry. Any other name is in each table in which the
entry mentions it. -/
def has (e : Entry) (kind : Kind) (name : String) : Bool :=
  match Kind.ofName? name with
  | some standard => standard = kind
  | none => e.mentions kind name

def flag (e : Entry) (name : String) : Bool :=
  ((e.flags.lookup name).bind Setting.value?).getD false

def number? (e : Entry) (name : String) : Option Int32 :=
  ((e.numbers.lookup name).bind Setting.value?).filter (0 ≤ ·)

def string? (e : Entry) (name : String) : Option Bytes :=
  ((e.strings.lookup name).bind Setting.value?).map Bytes.upToZero

def hasString (e : Entry) (name : String) : Bool := (e.string? name).isSome

/-- The cursor can be moved and the screen cleared, so that the type is not generic in earnest. -/
def canAddress (e : Entry) : Bool :=
  (e.hasString "cup" || (e.hasString "cud1" && e.hasString "home")) && e.hasString "clear"

end Entry

end Terminfo
