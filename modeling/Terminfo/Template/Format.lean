import Terminfo.Bytes

set_option autoImplicit false

namespace Terminfo.Template

inductive Conversion
  | decimal
  | octal
  | hexadecimal (upper : Bool)
  deriving DecidableEq, Repr

structure Format where
  marks : Bytes := []
  /-- A colon has been read, so that a minus sign is a mark and not a subtraction. -/
  colon : Bool := false
  dot : Bool := false
  value : Nat := 0
  /-- A second dot, or a number that is too large: the marks have no effect. -/
  broken : Bool := false
  deriving DecidableEq, Repr

namespace Format

def largestNumber : Nat := 10000

def feed? (f : Format) (b : UInt8) : Option Format :=
  if Bytes.isDigit b then
    let value := f.value * 10 + Bytes.digit b
    some { f with marks := f.marks ++ [b], value, broken := f.broken || largestNumber < value }
  else match Bytes.letter b with
    | '.' =>
      some { f with marks := f.marks ++ [b], dot := true, value := 0, broken := f.broken || f.dot }
    | '#' | ' ' => some { f with marks := f.marks ++ [b] }
    | ':' => some { f with colon := true }
    | '-' => if f.colon then some { f with marks := f.marks ++ [b] } else none
    | _ => none

end Format

structure Layout where
  left : Bool
  alternate : Bool
  space : Bool
  zero : Bool
  width : Nat
  precision : Option Nat
  excess : Bytes

namespace Layout

def number (digits : Bytes) : Nat := digits.foldl (fun n b ↦ n * 10 + Bytes.digit b) 0

def isFlag (b : UInt8) : Bool :=
  match Bytes.letter b with
  | '-' | '#' | ' ' | '0' => true
  | _ => false

def ofMarks (marks : Bytes) : Layout :=
  let flags := marks.takeWhile isFlag
  let sized := marks.dropWhile isFlag
  let width := number (sized.takeWhile Bytes.isDigit)
  let dotted := sized.dropWhile Bytes.isDigit
  let layout : Layout :=
    { left := flags.contains (Bytes.ofLetter '-')
      alternate := flags.contains (Bytes.ofLetter '#')
      space := flags.contains (Bytes.ofLetter ' ')
      zero := flags.contains (Bytes.ofLetter '0')
      width, precision := none, excess := dotted }
  match dotted with
  | [] => layout
  | b :: rest =>
    if b = Bytes.ofLetter '.' then
      { layout with
        precision := some (number (rest.takeWhile Bytes.isDigit))
        excess := rest.dropWhile Bytes.isDigit }
    else layout

def pad (n : Nat) (c : Char) : Bytes := List.replicate n (Bytes.ofLetter c)

def spell (n : Nat) : Bytes := (Nat.toDigits 10 n).map Bytes.ofLetter

/-- A directive whose marks are not understood is printed as it was read. -/
def unread (l : Layout) (letter : UInt8) : Bytes :=
  pad 1 '%' ++ pad l.alternate.toNat '#' ++ pad l.space.toNat ' ' ++ pad l.left.toNat '-' ++
    pad (!l.left && l.zero).toNat '0' ++ (if l.width = 0 then [] else spell l.width) ++
    (match l.precision with
      | none => []
      | some p => pad 1 '.' ++ spell p) ++ l.excess ++ [letter]

def text (l : Layout) (body : Bytes) : Bytes :=
  let filler := pad (l.width - body.length) ' '
  if l.left then body ++ filler else filler ++ body

/-- Digits are filled up with zeros to the precision, or to the width where the zero flag stands
without a precision, and everything else with blanks. -/
def digits (l : Layout) (sign mark digits : Bytes) : Bytes :=
  let ruled := pad (l.precision.getD 1 - digits.length) '0' ++ digits
  let body := sign ++ mark ++ ruled
  if l.zero && !l.left && l.precision.isNone then
    sign ++ mark ++ pad (l.width - body.length) '0' ++ ruled
  else l.text body

end Layout

namespace Conversion

def letter : Conversion → UInt8
  | .decimal => Bytes.ofLetter 'd'
  | .octal => Bytes.ofLetter 'o'
  | .hexadecimal upper => Bytes.ofLetter (if upper then 'X' else 'x')

def ofLetter? : Char → Option Conversion
  | 'd' => some .decimal
  | 'o' => some .octal
  | 'x' => some (.hexadecimal false)
  | 'X' => some (.hexadecimal true)
  | _ => none

def base : Conversion → Nat
  | .decimal => 10
  | .octal => 8
  | .hexadecimal _ => 16

def magnitude (c : Conversion) (n : Int32) : Nat :=
  if c = .decimal then n.toInt.natAbs else n.toUInt32.toNat

def signOf (c : Conversion) (l : Layout) (n : Int32) : Bytes :=
  if c ≠ .decimal then []
  else if n < 0 then Layout.pad 1 '-'
  else Layout.pad l.space.toNat ' '

def markOf (c : Conversion) (l : Layout) (magnitude : Nat) : Bytes :=
  match c with
  | .hexadecimal _ =>
    if l.alternate && magnitude ≠ 0 then Layout.pad 1 '0' ++ [c.letter] else []
  | _ => []

/-- A zero of precision zero has no digits, and the alternate octal form starts with a zero. -/
def digitsOf (c : Conversion) (l : Layout) (magnitude : Nat) : Bytes :=
  let plain := (Nat.toDigits c.base magnitude).map fun d ↦
    Bytes.ofLetter (if c = .hexadecimal true then d.toUpper else d)
  let digits := if magnitude = 0 && l.precision = some 0 then [] else plain
  let marked := c = .octal && l.alternate && digits.length ≥ l.precision.getD 1 &&
    (magnitude ≠ 0 || digits.isEmpty)
  if marked then Layout.pad 1 '0' ++ digits else digits

def print (c : Conversion) (l : Layout) (n : Int32) : Bytes :=
  if l.excess.isEmpty then
    let magnitude := c.magnitude n
    l.digits (c.signOf l n) (c.markOf l magnitude) (c.digitsOf l magnitude)
  else l.unread c.letter

end Conversion

namespace Format

def layout (f : Format) : Layout := Layout.ofMarks (if f.broken then [] else f.marks)

def printNumber (f : Format) (c : Conversion) (n : Int32) : Bytes := c.print f.layout n

def printText (f : Format) : Bytes :=
  if f.layout.excess.isEmpty then f.layout.text []
  else f.layout.unread (Bytes.ofLetter 's')

end Format

end Terminfo.Template
