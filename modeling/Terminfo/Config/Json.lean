import Terminfo.Config
import Terminfo.Json.Tree

set_option autoImplicit false

namespace Terminfo.Config

inductive Field
  | term
  | ttyPath
  | affectedLines
  | useEnvSize
  deriving DecidableEq, Repr

namespace Field

def all : List Field := [.term, .ttyPath, .affectedLines, .useEnvSize]

def key : Field → String
  | .term => "term"
  | .ttyPath => "tty_path"
  | .affectedLines => "affected_lines"
  | .useEnvSize => "use_env_size"

def ofKey? (key : String) : Option Field := all.find? (·.key = key)

/-- Sets a field to a value of its type. Only the terminal type may be null. -/
def assign? (f : Field) (c : Config) (t : Json.Tree) : Option Config :=
  match f, t with
  | .term, .null => some { c with term := none }
  | .term, .text l => l.text?.map fun s ↦ { c with term := some s }
  | .ttyPath, .text l => l.text?.map fun s ↦ { c with ttyPath := s }
  | .affectedLines, .number n =>
    (n.int?.bind Text.toInt32?).map fun n ↦ { c with affectedLines := n }
  | .useEnvSize, .truth b => some { c with useEnvSize := b }
  | _, _ => none

end Field

/-- Members that are no field are passed over; no field may be given twice. -/
def ofMembers? (c : Config) (seen : List Field) : List (Json.Literal × Json.Tree) → Option Config
  | [] => some c
  | (key, t) :: members => do
    match Field.ofKey? (← key.text?) with
    | none => ofMembers? c seen members
    | some f =>
      if seen.contains f then none else ofMembers? (← f.assign? c t) (f :: seen) members

def ofItems? (c : Config) : List Field → List Json.Tree → Option Config
  | _, [] => some c
  | [], _ :: _ => none
  | f :: fields, t :: items => (f.assign? c t).bind fun c ↦ ofItems? c fields items

def ofTree? : Json.Tree → Option Config
  | .object members => ofMembers? {} [] members
  | .list items => ofItems? {} Field.all items
  | _ => none

def ofJson (text : String) : Except Error Config :=
  match (Json.Tree.parse? text.toList).bind ofTree? with
  | none => .error (.config .malformed)
  | some c =>
    match c.fault? with
    | none => .ok c
    | some fault => .error (.config fault)

abbrev FileContent := Except IoError Bytes

def load (path : String) (content : FileContent) : Except Error Config :=
  match content with
  | .error cause => .error (.config (.unreadable path cause))
  | .ok b =>
    match Bytes.text? b with
    | none => .error (.config (.unreadable path .invalidText))
    | some text => ofJson text

def escapedChar (c : Char) : List Char :=
  match c with
  | '"' => ['\\', '"']
  | '\\' => ['\\', '\\']
  | '\x08' => ['\\', 'b']
  | '\t' => ['\\', 't']
  | '\n' => ['\\', 'n']
  | '\x0c' => ['\\', 'f']
  | '\r' => ['\\', 'r']
  | c =>
    if c.toNat < 0x20 then
      ['\\', 'u', '0', '0', Nat.digitChar (c.toNat / 16), Nat.digitChar (c.toNat % 16)]
    else [c]

def jsonText (s : String) : List Char := '"' :: s.toList.flatMap escapedChar ++ ['"']

def jsonTruth (b : Bool) : List Char :=
  if b then ['t', 'r', 'u', 'e'] else ['f', 'a', 'l', 's', 'e']

def jsonInt (n : Int) : List Char :=
  if n < 0 then '-' :: Nat.toDigits 10 n.natAbs else Nat.toDigits 10 n.natAbs

def jsonValue (c : Config) : Field → List Char
  | .term => (c.term.map jsonText).getD ['n', 'u', 'l', 'l']
  | .ttyPath => jsonText c.ttyPath
  | .affectedLines => jsonInt c.affectedLines.toInt
  | .useEnvSize => jsonTruth c.useEnvSize

def jsonMember (c : Config) (f : Field) : List Char :=
  '"' :: f.key.toList ++ ['"', ':'] ++ c.jsonValue f

def toJson (c : Config) : String :=
  String.ofList ('\x7b' :: [','].intercalate (Field.all.map c.jsonMember) ++ ['\x7d'])

end Terminfo.Config
