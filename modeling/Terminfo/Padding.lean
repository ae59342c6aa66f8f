import Terminfo.Bytes

set_option autoImplicit false

namespace Terminfo.Padding

/-- How far a delay has been read. Delays are counted in tenths of a millisecond. -/
inductive Delay
  | whole (n : Int32)
  | point (tenths : Int32)
  | decimals (tenths : Int32)
  | factors (tenths : Int32)
  deriving DecidableEq, Repr

namespace Delay

def tenths : Delay → Int32
  | .whole n => n * 10
  | .point t | .decimals t | .factors t => t

def factor? (d : Delay) (lines : Int32) (b : UInt8) : Option Delay :=
  match Bytes.letter b with
  | '*' => some (.factors (d.tenths * lines))
  | '/' => some (.factors d.tenths)
  | _ => none

/-- The delay with one more byte, or `none` where the byte ends it. Of the decimals only the first
one counts. -/
def feed? (d : Delay) (lines : Int32) (b : UInt8) : Option Delay :=
  match d with
  | .whole n =>
    if Bytes.isDigit b then some (.whole (n * 10 + Int32.ofNat (Bytes.digit b)))
    else if b = Bytes.ofLetter '.' then some (.point (n * 10))
    else d.factor? lines b
  | .point t =>
    if Bytes.isDigit b then some (.decimals (t + Int32.ofNat (Bytes.digit b)))
    else d.factor? lines b
  | .decimals _ => if Bytes.isDigit b then some d else d.factor? lines b
  | .factors _ => d.factor? lines b

end Delay

structure Pacing where
  speed : Int32
  filler : UInt8
  silent : Bool
  deriving DecidableEq, Repr

/-- No delay lasts longer, in milliseconds. -/
def longestDelay : Int32 := 30000

/-- As many fillers as the line carries during the delay, at nine bits a byte. -/
def Pacing.fill (p : Pacing) (tenths : Int32) : Bytes :=
  if p.silent || tenths ≤ 0 then []
  else List.replicate (min (tenths / 10) longestDelay * p.speed / 9000).toInt.toNat p.filler

inductive Scan
  | text
  | dollar
  | delay (d : Delay)
  deriving DecidableEq, Repr

def opensDelay : Bytes → Bool
  | [] => false
  | b :: bs =>
    (Bytes.isDigit b || b = Bytes.ofLetter '.') && (b :: bs).contains (Bytes.ofLetter '>')

/-- The bytes that the provider emits for a string, fillers in place of its delays. The byte after
a delay is dropped, and a dollar sign covers the byte after it. -/
def emit (p : Pacing) (lines : Int32) : Scan → Bytes → Bytes
  | .text, [] => []
  | .dollar, [] => [Bytes.ofLetter '$']
  | .delay d, [] => p.fill d.tenths
  | .text, b :: bs =>
    if b = Bytes.ofLetter '$' then emit p lines .dollar bs else b :: emit p lines .text bs
  | .dollar, b :: bs =>
    if b = Bytes.ofLetter '<' && opensDelay bs then emit p lines (.delay (.whole 0)) bs
    else Bytes.ofLetter '$' :: b :: emit p lines .text bs
  | .delay d, b :: bs =>
    match d.feed? lines b with
    | some d' => emit p lines (.delay d') bs
    | none => p.fill d.tenths ++ emit p lines .text bs

def expand (p : Pacing) (lines : Int32) (template : Bytes) : Bytes := emit p lines .text template

end Terminfo.Padding
