import Terminfo.Host
import Terminfo.Padding
import Terminfo.Template.Expansion
import Terminfo.Text.Integer

set_option autoImplicit false

namespace Terminfo

/-- What the provider keeps for one terminal that has been set up. -/
structure Context where
  name : Bytes
  descriptor : Descriptor
  entry : Entry
  lines : Int32
  columns : Int32
  speed : Int32
  edition : Edition := .trusting
  /-- The variables that templates leave behind. -/
  stored : Template.Variables := Template.Variables.zero

namespace Context

/-- One screen dimension: the variable if it is a positive number, then the size that the tty
reports, then the entry, then the usual size. -/
def dimension (setting : Option Bytes) (reported : Option UInt16) (described : Option Int32)
    (usual : Int32) : Int32 :=
  let fromTty := (reported.filter (0 < ·)).map fun n ↦ Int32.ofNat n.toNat
  let fromEntry := described.filter (0 < ·)
  ((setting.bind Text.positive?).or (fromTty.or fromEntry)).getD usual

/-- Standard error is used in the place of a standard output that is no tty. -/
def redirected (h : Host) (fd : Descriptor) : Descriptor :=
  if fd = 1 && (h.devices.tty? fd).isNone then 2 else fd

def load (h : Host) (name : Bytes) (fd : Descriptor) (entry : Entry) : Context :=
  let fd := redirected h fd
  let tty := h.devices.tty? fd
  { name, descriptor := fd, entry, edition := h.edition
    lines := dimension (h.env.get? "LINES") (tty.map (·.window.row)) (entry.number? "lines") 24
    columns := dimension (h.env.get? "COLUMNS") (tty.map (·.window.col)) (entry.number? "cols") 80
    speed := (tty.map (·.speed)).getD 0 }

def number? (c : Context) (name : String) : Option Int32 :=
  if name = "lines" then some c.lines
  else if name = "cols" then some c.columns
  else c.entry.number? name

def flagAnswer (c : Context) (name : String) : Int32 :=
  if c.entry.has .boolean name then if c.entry.flag name then 1 else 0 else notBoolean

def numberAnswer (c : Context) (name : String) : Int32 :=
  if c.entry.has .numeric name then (c.number? name).getD absentNumeric else notNumeric

def stringAnswer (c : Context) (name : String) : Pointer :=
  if c.entry.has .string name then ((c.entry.string? name).map .to).getD .null else .last

def lookup (c : Context) (name : String) : Kind → Capability
  | .boolean => .ofFlag (c.flagAnswer name)
  | .numeric => .ofNumber (c.numberAnswer name)
  | .string => .ofString (c.stringAnswer name)

section Lookup

variable {c : Context} {name : String} {kind : Kind}

theorem lookup_of_not_has (h : c.entry.has kind name = false) :
    c.lookup name kind = .notThisType := by
  cases kind with
  | boolean => simp [lookup, flagAnswer, h, Capability.ofFlag]
  | numeric => simp [lookup, numberAnswer, h, Capability.ofNumber]
  | string => simp [lookup, stringAnswer, h, Capability.ofString]

theorem lookup_boolean (h : c.entry.has .boolean name = true) :
    c.lookup name .boolean = .boolean (c.entry.flag name) := by
  cases hflag : c.entry.flag name <;> simp [lookup, flagAnswer, h, hflag] <;> rfl

theorem lookup_numeric (h : c.entry.has .numeric name = true)
    (hnumber : ∀ n, c.number? name = some n → 0 ≤ n) :
    c.lookup name .numeric = ((c.number? name).map .number).getD .missing := by
  cases hn : c.number? name with
  | none => simp [lookup, numberAnswer, h, hn]; rfl
  | some n =>
    have hpos : (0 : Int32) ≤ n := hnumber n hn
    have hne : n ≠ notNumeric ∧ n ≠ absentNumeric := by
      constructor <;> rintro rfl <;> exact absurd hpos (by decide)
    simp [lookup, numberAnswer, h, hn, Capability.ofNumber, hne]

theorem lookup_string (h : c.entry.has .string name = true) :
    c.lookup name .string = ((c.entry.string? name).map .string).getD .missing := by
  cases hs : c.entry.string? name <;> simp [lookup, stringAnswer, h, hs, Capability.ofString]

end Lookup

/-- The capabilities that are known to have texts, with the places of these among the parameters.
The first one that has the template counts. -/
def textual : List (String × List Nat) :=
  [("pfkey", [1]), ("pfloc", [1]), ("pfx", [1]), ("pln", [1]), ("pfxl", [1, 2]), ("Ms", [0, 1]),
    ("Cs", [0])]

def carriesOut (c : Context) (template : Bytes) : Bool :=
  let texts := (Template.Usage.ofTemplate template).texts
  let known := textual.find? fun cap ↦ c.entry.string? cap.1 = some template
  c.edition = .trusting || texts = [] ||
    known.any fun cap ↦ (List.range Template.parameterCount).filter (texts.contains ·) = cap.2

theorem carriesOut_of_texts_eq_nil {template : Bytes}
    (h : (Template.Usage.ofTemplate template).texts = []) (c : Context) :
    c.carriesOut template = true := by
  simp [carriesOut, h]

/-- Gives nothing for a template that the provider does not carry out. -/
def expand (c : Context) (parameters : List Int64) (template : Bytes) : Option Bytes × Context :=
  if c.carriesOut template then
    let (expanded, stored) := Template.expand c.stored parameters template
    (some expanded, { c with stored })
  else (none, c)

def pacing (c : Context) : Padding.Pacing where
  speed := c.speed
  filler := ((c.entry.string? "pad").bind List.head?).getD 0
  silent := c.entry.flag "npc"

def pad (c : Context) (lines : Int32) (template : Bytes) : Bytes :=
  Padding.expand c.pacing lines template

end Context

end Terminfo
