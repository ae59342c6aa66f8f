set_option autoImplicit false

namespace Terminfo.Json

inductive Piece
  | plain (c : Char)
  | unit (n : Nat)
  deriving DecidableEq, Repr

/-- A string as it is written. Its units need not pair up to characters. -/
abbrev Literal := List Piece

namespace Literal

def isHigh (n : Nat) : Bool := 0xd800 ≤ n && n < 0xdc00

def isLow (n : Nat) : Bool := 0xdc00 ≤ n && n < 0xe000

def pair (high low : Nat) : Char :=
  Char.ofNat (0x10000 + (high - 0xd800) * 0x400 + (low - 0xdc00))

def chars? : Literal → Option (List Char)
  | [] => some []
  | .plain c :: rest => (chars? rest).map (c :: ·)
  | .unit high :: rest =>
    if isHigh high then
      match rest with
      | .unit low :: rest => if isLow low then (chars? rest).map (pair high low :: ·) else none
      | _ => none
    else if isLow high then none
    else (chars? rest).map (Char.ofNat high :: ·)

def text? (l : Literal) : Option String := l.chars?.map String.ofList

end Literal

end Terminfo.Json
