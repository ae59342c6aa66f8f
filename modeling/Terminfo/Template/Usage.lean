import Terminfo.Template.Directive

set_option autoImplicit false

namespace Terminfo.Template

/-- What the directives of a template, read without regard to branches, make of its parameters,
which are counted from zero. -/
structure Usage where
  explicit : Bool := false
  pending : Option Nat := none
  /-- The parameters that a directive for texts follows while they are pending. -/
  texts : List Nat := []
  height : Int := 0
  /-- How many of the first two parameters are needed where the stack holds nothing else. -/
  wanted : Nat := 0
  deriving DecidableEq, Repr

namespace Usage

def want (u : Usage) : Usage :=
  if u.height ≤ 0 ∧ u.wanted < 2 then { u with wanted := u.wanted + 1 } else u

def grow (u : Usage) : Usage := { u with height := u.height + 1 }

def shrink (u : Usage) : Usage := { u with height := u.height - 1 }

def settle (u : Usage) : Usage := { u with pending := none }

def name (u : Usage) (n : Nat) : Usage :=
  match n with
  | 0 => u.grow.settle
  | i + 1 => { u.grow with explicit := true, pending := some i }

def add (u : Usage) : Directive → Usage
  | .printNumber .. | .printByte => (if u.pending.isSome then u else u.want).shrink.settle
  | .printText _ | .textLength => { u.want with texts := u.pending.toList ++ u.texts }
  | .parameter b => if Bytes.isDigit b then u.name (Bytes.digit b) else u
  | .load _ | .constant _ => u.grow
  | .character _ => u.grow.settle
  | .binary _ => u.want.shrink.settle
  | .unary _ => u.want.settle
  | _ => u

def ofTemplate (template : Bytes) : Usage := (Scan.text.directives template).foldl add {}

/-- What the machine finds in the place of a parameter: no number if it is used as a text, and zero
if the template neither names nor wants it. -/
def see (u : Usage) (i : Nat) (n : Int64) : Option Int64 :=
  if i ∈ u.texts then none else if u.explicit ∨ i < u.wanted then some n else some 0

end Usage

end Terminfo.Template
