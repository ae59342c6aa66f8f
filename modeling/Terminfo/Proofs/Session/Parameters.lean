import Terminfo.Proofs.Session.Outcome
import Terminfo.Proofs.Session.Owned
import Terminfo.Proofs.Template.Agreement
import Terminfo.Proofs.Text.Decimal

set_option autoImplicit false

namespace Terminfo

theorem Bytes.ofText_ofList {cs : List Char} (h : ∀ c ∈ cs, c.utf8Size = 1) :
    ofText (String.ofList cs) = cs.map ofLetter := by
  rw [ofText_eq_flatMap, String.toList_ofList]
  induction cs with
  | nil => rfl
  | cons c cs ih =>
    obtain ⟨hc, hcs⟩ := List.forall_mem_cons.1 h
    rw [List.flatMap_cons, ih hcs, String.utf8EncodeChar_eq_singleton hc]
    rfl

namespace Template

def decimalText (n : Int32) : List Char :=
  (if n < 0 then ['-'] else []) ++ Nat.toDigits 10 n.toInt.natAbs

theorem isDigit_of_mem_digits {c : Char} {k : Nat} (h : c ∈ Nat.toDigits 10 k) :
    c.isDigit = true := Nat.isDigit_of_mem_toDigits (by decide) le_rfl h

theorem numeral_decimalText (n : Int32) : Text.Numeral (decimalText n) n.toInt := by
  have hdigits : ∀ c ∈ Nat.toDigits 10 n.toInt.natAbs, c.isDigit = true :=
    fun c hc ↦ isDigit_of_mem_digits hc
  have hvalue : Nat.ofDigitChars 10 (Nat.toDigits 10 n.toInt.natAbs) 0 = n.toInt.natAbs :=
    Nat.ofDigitChars_toDigits (by decide) le_rfl
  unfold decimalText
  by_cases hneg : n < 0
  · have hn : n.toInt = -(n.toInt.natAbs : Int) := by
      have hlt : n.toInt < 0 := Int32.lt_iff_toInt_lt.1 hneg
      omega
    have hnumeral := Text.Numeral.minus Nat.toDigits_ne_nil hdigits
    rw [hvalue, ← hn] at hnumeral
    rwa [if_pos hneg]
  · have hn : n.toInt = n.toInt.natAbs := by
      have hle : ¬ n.toInt < 0 := fun hlt ↦ hneg (Int32.lt_iff_toInt_lt.2 hlt)
      omega
    have hnumeral := Text.Numeral.plain Nat.toDigits_ne_nil hdigits
    rw [hvalue, ← hn] at hnumeral
    rwa [if_neg hneg]

theorem utf8Size_of_mem_decimalText {n : Int32} {c : Char} (h : c ∈ decimalText n) :
    c.utf8Size = 1 ∧ Bytes.ofLetter c ≠ 0 := by
  rcases List.mem_append.1 h with hsign | hdigits
  · split at hsign
    · obtain rfl := List.mem_singleton.1 hsign
      decide
    · cases hsign
  · obtain ⟨hmin, hmax⟩ := Text.isDigit_iff.1 (isDigit_of_mem_digits hdigits)
    have hle : c.val.toNat ≤ 57 := hmax
    have hge : 48 ≤ c.val.toNat := hmin
    constructor
    · exact Char.utf8Size_eq_one_iff.2 (UInt32.le_trans hmax (by decide))
    · intro hzero
      have hlow : c.val.toNat % 256 = 0 := congrArg UInt8.toNat hzero
      omega

theorem printNumber_decimal (n : Int32) :
    ({} : Format).printNumber .decimal n = (decimalText n).map Bytes.ofLetter := by
  have hlayout : ({} : Format).layout = ⟨false, false, false, false, 0, none, []⟩ := rfl
  have hruled : 1 - (Nat.toDigits 10 n.toInt.natAbs).length = 0 :=
    Nat.sub_eq_zero_of_le (List.length_pos_iff.2 Nat.toDigits_ne_nil)
  have hsign : Conversion.decimal.signOf ⟨false, false, false, false, 0, none, []⟩ n =
      (if n < 0 then ['-'] else []).map Bytes.ofLetter := by
    simp only [Conversion.signOf, ne_eq, not_true, if_false]
    split <;> rfl
  simp [Format.printNumber, hlayout, Conversion.print, hsign, Layout.digits, Conversion.markOf,
    Conversion.digitsOf, Conversion.magnitude, Conversion.base, Layout.text, Layout.pad,
    decimalText, hruled]

theorem spells_printNumber (n : Int32) :
    Text.Spells (({} : Format).printNumber .decimal n) n := by
  refine ⟨[], decimalText n, [], ?_, nofun, nofun, numeral_decimalText n⟩
  rw [List.nil_append, List.append_nil, printNumber_decimal,
    Bytes.ofText_ofList fun c hc ↦ (utf8Size_of_mem_decimalText hc).1]

theorem zero_notMem_printNumber (n : Int32) : 0 ∉ ({} : Format).printNumber .decimal n := by
  intro h
  rw [printNumber_decimal] at h
  obtain ⟨c, hc, hzero⟩ := List.mem_map.1 h
  exact (utf8Size_of_mem_decimalText hc).2 hzero

def showing (i : Fin parameterCount) : Bytes :=
  (Element.parameter i).bytes ++ [Bytes.percent, Bytes.ofLetter 'd']

namespace Machine

variable {m : Machine}

theorem run_parameter (hm : m.mode = .reading .text) (i : Fin parameterCount) :
    m.run (Element.parameter i).bytes = m.push (m.item i) := by
  have hdigit : ∀ i : Fin parameterCount,
      (Bytes.isDigit (Bytes.ofLetter (Nat.digitChar (i + 1))) &&
        Bytes.digit (Bytes.ofLetter (Nat.digitChar (i + 1))) ≠ 0) = true ∧
      Bytes.digit (Bytes.ofLetter (Nat.digitChar (i + 1))) - 1 = i.val := by decide +kernel
  have hrun : m.run (Element.parameter i).bytes =
      m.pushParameter (Bytes.ofLetter (Nat.digitChar (i + 1))) := by
    obtain ⟨parameters, preloaded, incremented, stack, locals, stored, mode, output⟩ := m
    cases hm
    rfl
  rw [hrun, pushParameter, if_pos (hdigit i).1, (hdigit i).2]

theorem run_decimal (hm : m.mode = .reading .text) :
    m.run [Bytes.percent, Bytes.ofLetter 'd'] =
      m.drop.write (({} : Format).printNumber .decimal m.top) := by
  obtain ⟨parameters, preloaded, incremented, stack, locals, stored, mode, output⟩ := m
  cases hm
  rfl

end Machine

theorem expand_showing (stored : Variables) (parameters : List Int64) (i : Fin parameterCount) :
    (expand stored parameters (showing i)).1 =
      ({} : Format).printNumber .decimal (parameters[i.val]?.getD 0).toInt32 := by
  have husage : ∀ i, (Usage.ofTemplate (showing i)).explicit = true ∧
      (Usage.ofTemplate (showing i)).texts = [] := by decide +kernel
  let m := start stored parameters (showing i)
  let n := (parameters[i.val]?.getD 0).toInt32
  have hitem : m.item i = .number n := by
    simp [m, n, start, slots, Machine.item, Machine.parameter, Usage.see, husage]
  have hpush : m.push (.number n) = { m with stack := [.number n] } := by
    simp [m, start, Machine.push, husage, Machine.stackSize]
  have hrun : m.run (showing i) =
      { m with output := (({} : Format).printNumber .decimal n).reverse } := by
    rw [showing, Machine.run_append, Machine.run_parameter rfl, hitem, hpush,
      Machine.run_decimal rfl]
    simp [Machine.write, Machine.drop, Machine.top, Item.value, m, start, husage]
  change Bytes.upToZero (m.run (showing i)).output.reverse = _
  rw [hrun, List.reverse_reverse, Bytes.upToZero_eq_self (zero_notMem_printNumber _)]

end Template

variable {template : Bytes} {parameters parameters' : List Int64} {b : Switchboard}

theorem Switchboard.expand_congr (template : Bytes)
    (hslots : (Template.slots parameters').map (·.toInt32) =
      (Template.slots parameters).map (·.toInt32)) :
    b.expand parameters' template = b.expand parameters template := by
  have hcontext (c : Context) : c.expand parameters' template = c.expand parameters template := by
    simp only [Context.expand, Template.expand_congr c.stored template hslots]
  have hprovider : b.provider.expand parameters' template =
      b.provider.expand parameters template := by
    simp only [Provider.expand, hcontext]
  simp only [expand, hprovider]

namespace Session

variable {s : Session}

theorem checkExpansion_congr (hcount : parameters.length ≤ Template.parameterCount)
    (hcount' : parameters'.length ≤ Template.parameterCount) :
    checkExpansion template parameters' = checkExpansion template parameters := by
  simp only [checkExpansion, checkParameters, Nat.not_lt.2 hcount, Nat.not_lt.2 hcount', if_false]

theorem expandParameters_congr (hcount : parameters.length ≤ Template.parameterCount)
    (hcount' : parameters'.length ≤ Template.parameterCount)
    (hslots : (Template.slots parameters').map (·.toInt32) =
      (Template.slots parameters).map (·.toInt32)) :
    s.expandParameters template parameters' = s.expandParameters template parameters := by
  have hexpand : (fun b : Switchboard ↦ b.expand parameters' template) =
      fun b ↦ b.expand parameters template := funext fun _ ↦ Switchboard.expand_congr _ hslots
  simp only [expandParameters, checkExpansion_congr hcount hcount', hexpand]

theorem expandParameters_showing (hb : b.Coherent) (hs : s.Live b) (hi : s.isInitialized)
    (hcount : parameters.length ≤ Template.parameterCount) (i : Fin Template.parameterCount) :
    ((s.expandParameters (Template.showing i) parameters).run b).1 =
      .ok (({} : Template.Format).printNumber .decimal (parameters[i.val]?.getD 0).toInt32) := by
  have hfine : ∀ i, Template.showing i ≠ [] ∧ 0 ∉ Template.showing i ∧
      Template.takesString (Template.showing i) = false ∧
        (Template.Usage.ofTemplate (Template.showing i)).texts = [] := by decide +kernel
  obtain ⟨hne, hzero, hsearch, htexts⟩ := hfine i
  obtain ⟨c, hc⟩ := Option.isSome_iff_exists.1 ((isSome_owned hs).trans hi)
  rw [expandParameters_run hb hs hc (checkExpansion_ok hne hzero hcount),
    Context.expansion_of_carriesOut hsearch (c.carriesOut_of_texts_eq_nil htexts),
    Template.expand_showing]

/-- An expansion sees nine parameters, missing ones as zero, and of each its lower half. -/
theorem expandParameters_sees (s : Session) (b : Switchboard) :
    (∀ (template : Bytes) (parameters parameters' : List Int64),
      parameters.length ≤ 9 → parameters'.length ≤ 9 →
      (∀ i < 9, (parameters'[i]?.getD 0).toInt ≡ (parameters[i]?.getD 0).toInt [ZMOD 2 ^ 32]) →
      (s.expandParameters template parameters').run b =
        (s.expandParameters template parameters).run b) ∧
    (∀ (template : Bytes) (parameters : List Int64),
      template ≠ [] → 0 ∉ template → 9 < parameters.length →
      (s.expandParameters template parameters).run b =
        (.error (.invalidArgument (.tooManyParameters parameters.length)), b)) ∧
    (b.Coherent → s.Live b → s.isInitialized →
      ∀ (parameters : List Int64) (i : Fin 9), parameters.length ≤ 9 →
        ∃ shown, ((s.expandParameters (Template.showing i) parameters).run b).1 = .ok shown ∧
          Text.Spells shown (parameters[i.val]?.getD 0).toInt32) := by
  refine ⟨?_, ?_, ?_⟩
  · intro template parameters parameters' hcount hcount' hcongruent
    rw [expandParameters_congr hcount hcount' (Template.map_toInt32_slots hcongruent)]
  · intro template parameters ht hzero hcount
    have hcheck := (checkExpansion_error_iff ht hzero).2 ⟨hcount, rfl⟩
    simp only [expandParameters, hcheck, Guarded.run_pure]
  · intro hb hs hi parameters i hcount
    exact ⟨_, expandParameters_showing hb hs hi hcount i, Template.spells_printNumber _⟩

theorem expandParameters_sees_lower_halves :
    let host : Host := { entries := [("x", some {})] }
    let r := (({} : Session).init host (some "x") 1).run (.start .ascending)
    let template := Bytes.ofText "%i%p1%d,%p2%d,%p9%d%p1%PA"
    r.2.Coherent ∧ r.1.2.Live r.2 ∧ r.1.2.isInitialized ∧
      (r.1.2.expandParameters template [4294967301, -1]).run r.2 =
        (r.1.2.expandParameters template [5, 4294967295, 0]).run r.2 ∧
      (r.1.2.expandParameters template [0, 1, 2, 3, 4, 5, 6, 7, 8, 9]).run r.2 =
        (.error (.invalidArgument (.tooManyParameters 10)), r.2) ∧
      ∃ shown,
        ((r.1.2.expandParameters (Template.showing ⟨1, by decide⟩) [4294967301, -1]).run r.2).1 =
          .ok shown ∧ Text.Spells shown (-1) := by
  intro host r template
  have hstarts := init_starts (Switchboard.coherent_start .ascending)
    (fun _ h ↦ nomatch h : ({} : Session).Live _) host (some "x") 1
  have hlive : r.1.2.Live r.2 := by
    rintro a ⟨⟩
    exact List.mem_cons_self
  obtain ⟨hsame, hmany, hshown⟩ := expandParameters_sees r.1.2 r.2
  refine ⟨hstarts.coherent, hlive, rfl, ?_, ?_, ?_⟩
  · exact hsame template _ _ (by decide) (by decide) (by decide)
  · exact hmany template _ (by decide +kernel) (by decide +kernel) (by decide)
  · exact hshown hstarts.coherent hlive rfl [4294967301, -1] 1 (by decide)

end Session

end Terminfo
