import Terminfo.Bytes

set_option autoImplicit false

namespace Terminfo.Template

inductive Search
  | text
  | percent
  | marks
  | operand
  | quote
  | found
  deriving DecidableEq, Repr

namespace Search

def isMark (b : UInt8) : Bool :=
  match Bytes.letter b with
  | '-' | '+' | '#' | ' ' | '.' => true
  | _ => Bytes.isDigit b

def mark (b : UInt8) : Search :=
  if isMark b then .marks else if b = Bytes.ofLetter 's' then .found else .text

/-- A plus or a minus right after the percent sign is an operator. -/
def start (b : UInt8) : Search :=
  match Bytes.letter b with
  | '%' | '+' | '-' => .text
  | '\'' => .quote
  | 'P' | 'g' => .operand
  | 'l' => .found
  | ':' => .marks
  | _ => mark b

def feed (s : Search) (b : UInt8) : Search :=
  match s with
  | .text => if b = Bytes.ofLetter '%' then .percent else .text
  | .percent => start b
  | .marks => mark b
  | .quote => .operand
  | .operand => .text
  | .found => .found

end Search

/-- Whether a template has a directive that takes a string: `%l`, or `%s` with any marks. -/
def takesString (template : Bytes) : Bool := template.foldl Search.feed .text = .found

end Terminfo.Template
