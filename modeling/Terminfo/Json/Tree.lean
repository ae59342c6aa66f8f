import Terminfo.Json.Token

set_option autoImplicit false

namespace Terminfo.Json

/-- A JSON value. Members keep the order in which they are written, and a key may recur. -/
inductive Tree
  | null
  | truth (b : Bool)
  | number (n : Number)
  | text (l : Literal)
  | list (items : List Tree)
  | object (members : List (Literal × Tree))

inductive Frame
  | list (items : List Tree)
  | object (members : List (Literal × Tree)) (key : Literal)

inductive Reader
  | value (frames : List Frame)
  | itemOrEnd (frames : List Frame)
  | keyOrEnd (frames : List Frame)
  | key (members : List (Literal × Tree)) (frames : List Frame)
  | colon (members : List (Literal × Tree)) (key : Literal) (frames : List Frame)
  | complete (t : Tree) (frames : List Frame)

namespace Reader

def value? (frames : List Frame) : Token → Option Reader
  | .null => some (.complete .null frames)
  | .truth b => some (.complete (.truth b) frames)
  | .number n => some (.complete (.number n) frames)
  | .text l => some (.complete (.text l) frames)
  | .openList => some (.itemOrEnd frames)
  | .openObject => some (.keyOrEnd frames)
  | _ => none

def feed? (r : Reader) (token : Token) : Option Reader :=
  match r with
  | .value frames => value? frames token
  | .itemOrEnd frames =>
    if token = .closeList then some (.complete (.list []) frames)
    else value? (.list [] :: frames) token
  | .keyOrEnd frames =>
    match token with
    | .closeObject => some (.complete (.object []) frames)
    | .text name => some (.colon [] name frames)
    | _ => none
  | .key members frames =>
    match token with
    | .text name => some (.colon members name frames)
    | _ => none
  | .colon members name frames =>
    match token with
    | .colon => some (.value (.object members name :: frames))
    | _ => none
  | .complete t frames =>
    match frames, token with
    | .list items :: frames, .comma => some (.value (.list (t :: items) :: frames))
    | .list items :: frames, .closeList => some (.complete (.list (t :: items).reverse) frames)
    | .object members name :: frames, .comma => some (.key ((name, t) :: members) frames)
    | .object members name :: frames, .closeObject =>
      some (.complete (.object ((name, t) :: members).reverse) frames)
    | _, _ => none

def finish? : Reader → Option Tree
  | .complete t [] => some t
  | _ => none

def run? (r : Reader) : List Token → Option Tree
  | [] => r.finish?
  | token :: tokens =>
    match r.feed? token with
    | none => none
    | some r => r.run? tokens

end Reader

namespace Tree

/-- The value that a text spells, if it is JSON. Values may nest to any depth. -/
def parse? (cs : List Char) : Option Tree := (tokens? cs).bind ((Reader.value []).run? ·)

end Tree

end Terminfo.Json
