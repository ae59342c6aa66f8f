import Terminfo.Json.Literal
import Terminfo.Text.Integer

set_option autoImplicit false

namespace Terminfo.Json

inductive NumberPart
  | sign
  | zero
  | whole
  | point
  | fraction
  | exponent
  | exponentSign
  | exponentDigits
  deriving DecidableEq, Repr

structure Number where
  negative : Bool
  whole : Nat
  part : NumberPart
  deriving DecidableEq, Repr

namespace Number

def start? (c : Char) : Option Number :=
  if c = '-' then some ⟨true, 0, .sign⟩
  else if c = '0' then some ⟨false, 0, .zero⟩
  else if c.isDigit then some ⟨false, c.toNat - '0'.toNat, .whole⟩
  else none

def feed? (n : Number) (c : Char) : Option Number :=
  let digit := c.toNat - '0'.toNat
  match n.part with
  | .sign =>
    if c = '0' then some { n with part := .zero }
    else if c.isDigit then some { n with whole := digit, part := .whole } else none
  | .zero => afterWhole n c
  | .whole => if c.isDigit then some { n with whole := n.whole * 10 + digit } else afterWhole n c
  | .point => if c.isDigit then some { n with part := .fraction } else none
  | .fraction => if c.isDigit then some n else afterFraction n c
  | .exponent =>
    if c.isDigit then some { n with part := .exponentDigits }
    else if c = '+' || c = '-' then some { n with part := .exponentSign } else none
  | .exponentSign | .exponentDigits =>
    if c.isDigit then some { n with part := .exponentDigits } else none
where
  afterFraction (n : Number) (c : Char) : Option Number :=
    if c = 'e' || c = 'E' then some { n with part := .exponent } else none
  afterWhole (n : Number) (c : Char) : Option Number :=
    if c = '.' then some { n with part := .point } else afterFraction n c

def isComplete (n : Number) : Bool :=
  match n.part with
  | .zero | .whole | .fraction | .exponentDigits => true
  | .sign | .point | .exponent | .exponentSign => false

/-- The integer that is meant. Minus zero is none, as it would lose its sign. -/
def int? (n : Number) : Option Int :=
  match n.part with
  | .zero => if n.negative then none else some 0
  | .whole => some (if n.negative then -n.whole else n.whole)
  | _ => none

end Number

inductive Token
  | openList
  | closeList
  | openObject
  | closeObject
  | comma
  | colon
  | null
  | truth (b : Bool)
  | number (n : Number)
  | text (l : Literal)
  deriving DecidableEq, Repr

/-- What of a token has been read. The pieces of a string are kept with the last one first. -/
inductive Lexer
  | ground
  | word (rest : List Char) (token : Token)
  | number (n : Number)
  | text (pieces : Literal)
  | escape (pieces : Literal)
  | unit (pieces : Literal) (digits : Nat) (value : Nat)
  deriving DecidableEq, Repr

namespace Lexer

def isSpace (c : Char) : Bool := c = ' ' || c = '\n' || c = '\t' || c = '\r'

def punctuation? : Char → Option Token
  | '[' => some .openList
  | ']' => some .closeList
  | '\x7b' => some .openObject
  | '\x7d' => some .closeObject
  | ',' => some .comma
  | ':' => some .colon
  | _ => none

def open? (tokens : List Token) (c : Char) : Option (Lexer × List Token) :=
  if isSpace c then some (.ground, tokens)
  else
    match punctuation? c with
    | some token => some (.ground, token :: tokens)
    | none =>
      match c with
      | '"' => some (.text [], tokens)
      | 't' => some (.word ['r', 'u', 'e'] (.truth true), tokens)
      | 'f' => some (.word ['a', 'l', 's', 'e'] (.truth false), tokens)
      | 'n' => some (.word ['u', 'l', 'l'] .null, tokens)
      | c => (Number.start? c).map fun n ↦ (.number n, tokens)

def escaped? : Char → Option Char
  | '"' => some '"'
  | '\\' => some '\\'
  | '/' => some '/'
  | 'b' => some '\x08'
  | 'f' => some '\x0c'
  | 'n' => some '\n'
  | 'r' => some '\r'
  | 't' => some '\t'
  | _ => none

/-- A number ends where a character does not belong to it, which then opens the next token. -/
def feed? (lexer : Lexer) (tokens : List Token) (c : Char) : Option (Lexer × List Token) :=
  match lexer with
  | .ground => open? tokens c
  | .word [] _ => none
  | .word [last] token => if c = last then some (.ground, token :: tokens) else none
  | .word (next :: rest) token => if c = next then some (.word rest token, tokens) else none
  | .number n =>
    match n.feed? c with
    | some n => some (.number n, tokens)
    | none => if n.isComplete then open? (.number n :: tokens) c else none
  | .text pieces =>
    match c with
    | '"' => some (.ground, .text pieces.reverse :: tokens)
    | '\\' => some (.escape pieces, tokens)
    | c => if c.toNat < 0x20 then none else some (.text (.plain c :: pieces), tokens)
  | .escape pieces =>
    if c = 'u' then some (.unit pieces 0 0, tokens)
    else (escaped? c).map fun c ↦ (.text (.plain c :: pieces), tokens)
  | .unit pieces digits value =>
    (Text.digit? 16 c).map fun d ↦
      let value := value * 16 + d
      if digits = 3 then (.text (.unit value :: pieces), tokens)
      else (.unit pieces (digits + 1) value, tokens)

def finish? (lexer : Lexer) (tokens : List Token) : Option (List Token) :=
  match lexer with
  | .ground => some tokens.reverse
  | .number n => if n.isComplete then some (.number n :: tokens).reverse else none
  | _ => none

def run? (lexer : Lexer) (tokens : List Token) : List Char → Option (List Token)
  | [] => lexer.finish? tokens
  | c :: cs =>
    match lexer.feed? tokens c with
    | none => none
    | some (lexer, tokens) => run? lexer tokens cs

end Lexer

def tokens? (cs : List Char) : Option (List Token) := Lexer.ground.run? [] cs

end Terminfo.Json
