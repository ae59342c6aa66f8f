import Terminfo.Template.Directive

set_option autoImplicit false

namespace Terminfo.Template

abbrev Variables := UInt8 → Int32

namespace Variables

def zero : Variables := fun _ ↦ 0

def set (v : Variables) (name : UInt8) (n : Int32) : Variables :=
  fun other ↦ if other = name then n else v other

end Variables

def isUpper (b : UInt8) : Bool := 65 ≤ b && b ≤ 90

def isLower (b : UInt8) : Bool := 97 ≤ b && b ≤ 122

inductive BranchEnd
  | otherwise
  | close
  deriving DecidableEq, Repr

/-- Inside a branch that is not taken, each percent sign takes the next byte for its letter. -/
inductive Mode
  | reading (s : Scan)
  | skipping (target : BranchEnd) (depth : Nat) (percent : Bool)
  deriving DecidableEq, Repr

namespace Mode

def skip (target : BranchEnd) (depth : Nat) (c : Char) : Mode :=
  match c, depth with
  | '?', _ => .skipping target (depth + 1) false
  | ';', depth + 1 => .skipping target depth false
  | ';', 0 => .reading .text
  | 'e', 0 => if target = .otherwise then .reading .text else .skipping target depth false
  | _, _ => .skipping target depth false

def feed (m : Mode) (b : UInt8) : Mode :=
  match m with
  | .reading s => .reading (s.feed b).1
  | .skipping e depth true => skip e depth (Bytes.letter b)
  | .skipping e depth false => .skipping e depth (b = Bytes.ofLetter '%')

def directive? (m : Mode) (b : UInt8) : Option Directive :=
  match m with
  | .reading s => (s.feed b).2
  | .skipping .. => none

end Mode

inductive Item
  | number (n : Int32)
  /-- The text that lies where the parameter of this number says. -/
  | text (i : Nat)
  deriving DecidableEq, Repr

namespace Item

def value : Item → Int32
  | .number n => n
  | .text _ => 0

end Item

structure Machine where
  /-- A parameter that the template takes for a text has no number. -/
  parameters : List (Option Int64)
  preloaded : Bool
  incremented : Bool := false
  stack : List Item
  locals : Variables := Variables.zero
  stored : Variables
  mode : Mode := .reading .text
  output : Bytes := []

namespace Machine

def stackSize : Nat := 20

def push (m : Machine) (x : Item) : Machine :=
  if m.stack.length < stackSize then { m with stack := x :: m.stack } else m

def top (m : Machine) : Int32 := (m.stack.head?.map Item.value).getD 0

def drop (m : Machine) : Machine := { m with stack := m.stack.tail }

def write (m : Machine) (b : Bytes) : Machine := { m with output := b.reverse ++ m.output }

def parameter (m : Machine) (i : Nat) : Int32 := (m.parameters[i]?.join.getD 0).toInt32

def item (m : Machine) (i : Nat) : Item :=
  if m.parameters[i]? = some none then .text i else .number (m.parameter i)

def pushParameter (m : Machine) (b : UInt8) : Machine :=
  if Bytes.isDigit b && Bytes.digit b ≠ 0 then m.push (m.item (Bytes.digit b - 1)) else m

def store (m : Machine) (name : UInt8) : Machine :=
  if isUpper name then { m.drop with stored := m.stored.set name m.top }
  else if isLower name then { m.drop with locals := m.locals.set name m.top }
  else m

def load (m : Machine) (name : UInt8) : Machine :=
  if isUpper name then m.push (.number (m.stored name))
  else if isLower name then m.push (.number (m.locals name))
  else m

/-- Adds one to the numbers among the first two parameters, at most once. Where the stack was
preloaded, its two lowest places take the new values in this order. -/
def increment (m : Machine) : Machine :=
  if m.incremented then m
  else
    let next :=
      { m with
        incremented := true
        parameters := (m.parameters.take 2).map (·.map (· + 1)) ++ m.parameters.drop 2 }
    if m.preloaded then
      { next with
        stack := ((m.stack.reverse.set 0 (.number (next.parameter 0))).set 1
          (.number (next.parameter 1))).reverse }
    else next

def skipTo (m : Machine) (e : BranchEnd) : Machine := { m with mode := .skipping e 0 false }

/-- A character is its low byte, and a zero is printed as the byte 128. -/
def byteOf (n : Int32) : UInt8 := if n = 0 then 128 else n.toUInt32.toUInt8

def perform (m : Machine) : Directive → Machine
  | .literal b => m.write [b]
  | .printNumber f c => m.drop.write (f.printNumber c m.top)
  | .printByte => m.drop.write [byteOf m.top]
  | .printText f => m.drop.write f.printText
  | .textLength => m.drop.push (.number 0)
  | .parameter b => m.pushParameter b
  | .store name => m.store name
  | .load name => m.load name
  | .character b => m.push (.number (Int32.ofNat b.toNat))
  | .constant n => m.push (.number n)
  | .binary op => m.drop.drop.push (.number (op.apply m.drop.top m.top))
  | .unary op => m.drop.push (.number (op.apply m.top))
  | .increment => m.increment
  | .branch => if m.top = 0 then m.drop.skipTo .otherwise else m.drop
  | .otherwise => m.skipTo .close
  | .idle => m

def feed (m : Machine) (b : UInt8) : Machine :=
  let next := { m with mode := m.mode.feed b }
  match m.mode.directive? b with
  | some d => next.perform d
  | none => next

def run (m : Machine) (template : Bytes) : Machine := template.foldl feed m

def trace : Machine → Bytes → List Directive
  | _, [] => []
  | m, b :: bs => (m.mode.directive? b).toList ++ trace (m.feed b) bs

/-- The provider has no defined way on: there is no quotient, or a text is read below the stack or at
an address that is only a number. A parameter of zero stands for no text. -/
def traps (m : Machine) (slots : List Int64) : Directive → Bool
  | .binary op => op.traps m.drop.top m.top
  | .printText _ | .textLength =>
    match m.stack.head? with
    | none => true
    | some (.number _) => false
    | some (.text i) => slots[i]?.getD 0 ≠ 0
  | _ => false

def crashes (slots : List Int64) : Machine → Bytes → Bool
  | _, [] => false
  | m, b :: bs => (m.mode.directive? b).any (m.traps slots) || crashes slots (m.feed b) bs

theorem run_append (m : Machine) (s t : Bytes) : m.run (s ++ t) = (m.run s).run t :=
  List.foldl_append

end Machine

end Terminfo.Template
