import Terminfo.Bytes

set_option autoImplicit false

namespace Terminfo.Text

def digit? (base : Nat) (c : Char) : Option Nat :=
  let value? :=
    if '0' ≤ c ∧ c ≤ '9' then some (c.toNat - '0'.toNat)
    else if 'a' ≤ c ∧ c ≤ 'f' then some (c.toNat - 'a'.toNat + 10)
    else if 'A' ≤ c ∧ c ≤ 'F' then some (c.toNat - 'A'.toNat + 10)
    else none
  value?.filter (· < base)

def digits? (base : Nat) (n : Nat) : List Char → Option Nat
  | [] => some n
  | c :: cs => (digit? base c).bind fun d ↦ digits? base (n * base + d) cs

def natural? (base : Nat) (cs : List Char) : Option Nat :=
  if cs.isEmpty then none else digits? base 0 cs

def signed? (magnitude? : List Char → Option Nat) : List Char → Option Int
  | '+' :: cs => (magnitude? cs).map Int.ofNat
  | '-' :: cs => (magnitude? cs).map fun n ↦ -Int.ofNat n
  | cs => (magnitude? cs).map Int.ofNat

def toInt32? (n : Int) : Option Int32 :=
  if Int32.minValue.toInt ≤ n ∧ n ≤ Int32.maxValue.toInt then some (Int32.ofInt n) else none

def decimal? (cs : List Char) : Option Int32 := (signed? (natural? 10) cs).bind toInt32?

/-- A magnitude whose first digits tell its base: `0x` sixteen, `0` eight, any other one ten. -/
def based? : List Char → Option Nat
  | '0' :: 'x' :: cs | '0' :: 'X' :: cs => natural? 16 cs
  | '0' :: cs => natural? 8 ('0' :: cs)
  | cs => natural? 10 cs

def isSpace (c : Char) : Bool := c = ' ' || ('\t' ≤ c && c ≤ '\r')

/-- A positive 32-bit number in any of the three bases, after white space of the first 128
characters. -/
def positive? (b : Bytes) : Option Int32 :=
  ((signed? based? ((b.map Bytes.letter).dropWhile isSpace)).bind toInt32?).filter (0 < ·)

end Terminfo.Text
