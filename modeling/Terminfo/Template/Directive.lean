import Terminfo.Template.Format

set_option autoImplicit false

namespace Terminfo.Template

inductive Binary
  | add | sub | mul | div | rem
  | bitAnd | bitOr | bitXor
  | equal | less | greater
  | both | either
  deriving DecidableEq, Repr

inductive Unary
  | negate
  | complement
  deriving DecidableEq, Repr

namespace Binary

def ofLetter? : Char → Option Binary
  | '+' => some .add
  | '-' => some .sub
  | '*' => some .mul
  | '/' => some .div
  | 'm' => some .rem
  | '&' => some .bitAnd
  | '|' => some .bitOr
  | '^' => some .bitXor
  | '=' => some .equal
  | '<' => some .less
  | '>' => some .greater
  | 'A' => some .both
  | 'O' => some .either
  | _ => none

def truth (b : Bool) : Int32 := if b then 1 else 0

/-- Division goes toward zero, and a zero divisor gives zero. -/
def apply (op : Binary) (x y : Int32) : Int32 :=
  match op with
  | .add => x + y
  | .sub => x - y
  | .mul => x * y
  | .div => if y = 0 then 0 else x / y
  | .rem => if y = 0 then 0 else x % y
  | .bitAnd => x &&& y
  | .bitOr => x ||| y
  | .bitXor => x ^^^ y
  | .equal => truth (x = y)
  | .less => truth (x < y)
  | .greater => truth (y < x)
  | .both => truth (x ≠ 0 && y ≠ 0)
  | .either => truth (x ≠ 0 || y ≠ 0)

def divides (op : Binary) : Bool := op = .div || op = .rem

/-- The least number divided by minus one has no quotient, and the division ends the process, so that
nobody sees what `apply` gives for it. -/
def traps (op : Binary) (x y : Int32) : Bool := op.divides && x = Int32.minValue && y = -1

end Binary

namespace Unary

def apply (op : Unary) (x : Int32) : Int32 :=
  match op with
  | .negate => Binary.truth (x = 0)
  | .complement => ~~~x

end Unary

inductive Directive
  | literal (b : UInt8)
  | printNumber (f : Format) (c : Conversion)
  | printByte
  | printText (f : Format)
  | textLength
  | parameter (b : UInt8)
  | store (b : UInt8)
  | load (b : UInt8)
  | character (b : UInt8)
  | constant (n : Int32)
  | binary (op : Binary)
  | unary (op : Unary)
  | increment
  | branch
  | otherwise
  | idle
  deriving DecidableEq, Repr

namespace Directive

def popsText : Directive → Bool
  | .printText _ | .textLength => true
  | _ => false

def divides : Directive → Bool
  | .binary op => op.divides
  | _ => false

def ofLetter (f : Format) (c : Char) : Directive :=
  match Conversion.ofLetter? c, Binary.ofLetter? c with
  | some conversion, _ => .printNumber f conversion
  | none, some op => .binary op
  | none, none =>
    match c with
    | '%' => .literal (Bytes.ofLetter '%')
    | 'c' => .printByte
    | 's' => .printText f
    | 'l' => .textLength
    | '!' => .unary .negate
    | '~' => .unary .complement
    | 'i' => .increment
    | 't' => .branch
    | 'e' => .otherwise
    | _ => .idle

end Directive

inductive Scan
  | text
  | format (f : Format)
  | parameter
  | store
  | load
  | quote
  | quoted
  | number (n : Int32)
  deriving DecidableEq, Repr

namespace Scan

def ofLetter (f : Format) (b : UInt8) : Scan × Option Directive :=
  match Bytes.letter b with
  | 'p' => (.parameter, none)
  | 'P' => (.store, none)
  | 'g' => (.load, none)
  | '\'' => (.quote, none)
  | '{' => (.number 0, none)
  | c => (.text, some (.ofLetter f c))

/-- Reads one byte, and hands over the directive that it completes. The byte after a quoted
character and the byte that ends a number are dropped whatever they are. -/
def feed (s : Scan) (b : UInt8) : Scan × Option Directive :=
  match s with
  | .text => if b = Bytes.ofLetter '%' then (.format {}, none) else (.text, some (.literal b))
  | .format f =>
    match f.feed? b with
    | some f' => (.format f', none)
    | none => ofLetter f b
  | .parameter => (.text, some (.parameter b))
  | .store => (.text, some (.store b))
  | .load => (.text, some (.load b))
  | .quote => (.quoted, some (.character b))
  | .quoted => (.text, none)
  | .number n =>
    if Bytes.isDigit b then (.number (n * 10 + Int32.ofNat (Bytes.digit b)), none)
    else (.text, some (.constant n))

/-- The directives of a template when no branch is left out. -/
def directives : Scan → Bytes → List Directive
  | _, [] => []
  | s, b :: bs => (s.feed b).2.toList ++ directives (s.feed b).1 bs

end Scan

end Terminfo.Template
