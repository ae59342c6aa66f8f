import Mathlib.Data.Bool.AllAny
import Terminfo.Proofs.Template.Guard

set_option autoImplicit false

namespace Terminfo.Template

/-- What may stand between the percent sign of a conversion and its letter: flags, then a width, then
a precision. After a colon the signs are flags too. -/
structure Modifiers where
  colon : Bool := false
  flags : Bytes := []
  width : Bytes := []
  precision : Option Bytes := none
  flags_mem : ∀ b ∈ flags, Bytes.letter b ∈ if colon then ['-', '+', '#', ' '] else ['#', ' '] := by
    decide +kernel
  isDigit_width : ∀ b ∈ width, Bytes.isDigit b := by decide +kernel
  isDigit_precision : ∀ p ∈ precision, ∀ b ∈ p, Bytes.isDigit b := by decide +kernel

namespace Modifiers

def sizes (m : Modifiers) : Bytes :=
  m.width ++ (m.precision.map (Bytes.ofLetter '.' :: ·)).getD []

def bytes (m : Modifiers) : Bytes :=
  (if m.colon then [Bytes.colon] else []) ++ (m.flags ++ m.sizes)

end Modifiers

def plainLetters : List Char :=
  ['%', 'c', '+', '-', '*', '/', 'm', '&', '|', '^', '~', '=', '<', '>', 'A', 'O', '!', 'i', '?', 't',
    'e', ';']

def conversionLetters : List Char := ['d', 'o', 'x', 'X', 's']

/-- What a template is composed of, by the description of its language. -/
inductive Element
  | literal (b : UInt8) (h : b ≠ Bytes.percent)
  | plain (c : Char) (h : c ∈ plainLetters)
  | conversion (m : Modifiers) (c : Char) (h : c ∈ conversionLetters)
  | textLength
  | parameter (i : Fin Template.parameterCount)
  | store (name : UInt8) (h : isUpper name || isLower name)
  | load (name : UInt8) (h : isUpper name || isLower name)
  | character (b : UInt8)
  | number (digits : Bytes) (h : ∀ b ∈ digits, Bytes.isDigit b)

namespace Element

def bytes : Element → Bytes
  | .literal b _ => [b]
  | .plain c _ => [Bytes.percent, Bytes.ofLetter c]
  | .conversion m c _ => Bytes.percent :: (m.bytes ++ [Bytes.ofLetter c])
  | .textLength => [Bytes.percent, Bytes.ofLetter 'l']
  | .parameter i => [Bytes.percent, Bytes.ofLetter 'p', Bytes.ofLetter (Nat.digitChar (i + 1))]
  | .store name _ => [Bytes.percent, Bytes.ofLetter 'P', name]
  | .load name _ => [Bytes.percent, Bytes.ofLetter 'g', name]
  | .character b => [Bytes.percent, Bytes.ofLetter '\'', b, Bytes.ofLetter '\'']
  | .number digits _ =>
    Bytes.percent :: Bytes.ofLetter '\x7b' :: (digits ++ [Bytes.ofLetter '\x7d'])

def takesText : Element → Bool
  | .conversion _ c _ => c = 's'
  | .textLength => true
  | _ => false

end Element

def compose (elements : List Element) : Bytes := elements.flatMap Element.bytes

namespace Scan

variable {f : Format} {b : UInt8}

theorem after_literals {bytes : Bytes} (h : Bytes.percent ∉ bytes) :
    text.after bytes = .text ∧ ∀ d ∈ text.directives bytes, d.popsText = false := by
  induction bytes with
  | nil => exact ⟨rfl, nofun⟩
  | cons b bytes ih =>
    obtain ⟨hb, hbytes⟩ := not_or.1 (mt List.mem_cons.2 h)
    obtain ⟨hafter, hdirectives⟩ := ih hbytes
    have hfeed : text.feed b = (.text, some (.literal b)) := if_neg (Ne.symm hb)
    rw [after, List.foldl_cons, directives, hfeed]
    exact ⟨hafter, List.forall_mem_cons.2 ⟨rfl, hdirectives⟩⟩

theorem feed_numeric (hnone : f.feed? b = none)
    (hletter : Bytes.letter b ∉ 's' :: 'l' :: Spelling.takers) :
    ∃ d : Directive, (format f).feed b = (.text, some d) ∧ d.popsText = false := by
  simp only [List.mem_cons, not_or] at hletter
  obtain ⟨hs, hl, htakers⟩ := hletter
  refine ⟨.ofLetter f (Bytes.letter b), ?_, ?_⟩
  · simp only [feed, hnone, ofLetter_nothing f htakers]
  · simp [Directive.popsText_ofLetter, hs, hl]

/-- A sign that is no mark to the reader is an operator, and text is what comes after it. -/
theorem after_conversion (f : Format) {marks : Bytes}
    (hmarks : ∀ b ∈ marks, Search.isMark b ∨ b = Bytes.colon) {c : Char}
    (hc : c ∈ conversionLetters) (hs : c ≠ 's') :
    (format f).after (marks ++ [Bytes.ofLetter c]) = .text ∧
      ∀ d ∈ (format f).directives (marks ++ [Bytes.ofLetter c]), d.popsText = false := by
  have hnone : ∀ (f : Format) (b : UInt8), Format.colonAfter? f.colon b = none →
      f.feed? b = none := fun f b h ↦ Option.map_eq_none_iff.1 ((f.map_colon_feed? b).trans h)
  induction marks generalizing f with
  | nil =>
    have htable : ∀ c ∈ conversionLetters, c ≠ 's' →
        (∀ colon, Format.colonAfter? colon (Bytes.ofLetter c) = none) ∧
          Bytes.letter (Bytes.ofLetter c) ∉ 's' :: 'l' :: Spelling.takers :=
      List.all_iff_forall_prop.1 (by decide)
    obtain ⟨hend, hletter⟩ := htable c hc hs
    obtain ⟨d, hfeed, hd⟩ := feed_numeric (hnone f _ (hend f.colon)) hletter
    rw [List.nil_append, after, List.foldl_cons, directives, hfeed]
    exact ⟨rfl, by simpa [directives] using hd⟩
  | cons b marks ih =>
    obtain ⟨hb, hrest⟩ := List.forall_mem_cons.1 hmarks
    rw [List.cons_append, after, List.foldl_cons, directives]
    cases hnext : f.feed? b with
    | some g =>
      have hfeed : (format f).feed b = (format g, none) := by simp only [feed, hnext]
      rw [hfeed]
      exact ih g hrest
    | none =>
      have htable : ∀ colon b, Search.isMark b ∨ b = Bytes.colon →
          Format.colonAfter? colon b = none →
            Bytes.letter b ∉ 's' :: 'l' :: Spelling.takers := by decide +kernel
      have hend : Format.colonAfter? f.colon b = none := by rw [← f.map_colon_feed?, hnext]; rfl
      obtain ⟨d, hfeed, hd⟩ := feed_numeric hnext (htable f.colon b hb hend)
      have hpercent : Bytes.percent ∉ marks ++ [Bytes.ofLetter c] := by
        have hletters : ∀ c ∈ conversionLetters, Bytes.percent ≠ Bytes.ofLetter c :=
          List.all_iff_forall_prop.1 (by decide)
        rw [List.mem_append, List.mem_singleton, not_or]
        exact ⟨fun hmem ↦ absurd (hrest _ hmem) (by decide), hletters c hc⟩
      obtain ⟨hafter, hdirectives⟩ := after_literals hpercent
      rw [hfeed]
      exact ⟨hafter, List.forall_mem_cons.2 ⟨hd, hdirectives⟩⟩

end Scan

namespace Modifiers

variable (m : Modifiers)

theorem isMark_sizes : ∀ b ∈ m.sizes, Search.isMark b ∧ Search.start b = .marks := by
  have hdigit : ∀ b, Bytes.isDigit b → Search.isMark b ∧ Search.start b = .marks := by
    decide +kernel
  intro b hb
  rcases List.mem_append.1 hb with hwidth | hprecision
  · exact hdigit b (m.isDigit_width b hwidth)
  · cases hp : m.precision with
    | none => simp [hp] at hprecision
    | some p =>
      have hmem : b = Bytes.ofLetter '.' ∨ b ∈ p := by simpa [hp] using hprecision
      rcases hmem with rfl | hmem
      · decide
      · exact hdigit b (m.isDigit_precision p hp b hmem)

theorem isMark_flags : ∀ b ∈ m.flags, Search.isMark b := by
  have hflag : ∀ b, Bytes.letter b ∈ ['-', '+', '#', ' '] → Search.isMark b := by decide +kernel
  intro b hb
  refine hflag b ?_
  have hmem := m.flags_mem b hb
  split at hmem
  · exact hmem
  · revert hmem
    simp only [List.mem_cons]
    grind

theorem start_flags (h : m.colon = false) : ∀ b ∈ m.flags, Search.start b = .marks := by
  have hflag : ∀ b, Bytes.letter b ∈ ['#', ' '] → Search.start b = .marks := by decide +kernel
  intro b hb
  have hmem := m.flags_mem b hb
  rw [h] at hmem
  exact hflag b hmem

theorem isMark_marks : ∀ b ∈ m.flags ++ m.sizes, Search.isMark b := by
  intro b hb
  rcases List.mem_append.1 hb with hflag | hsize
  · exact m.isMark_flags b hflag
  · exact (m.isMark_sizes b hsize).1

theorem isMark_bytes : ∀ b ∈ m.bytes, Search.isMark b ∨ b = Bytes.colon := by
  intro b hb
  rcases List.mem_append.1 hb with hcolon | hmark
  · exact .inr (by simpa using (List.mem_ite_nil_right.1 hcolon).2)
  · exact .inl (m.isMark_marks b hmark)

theorem after_marks {bytes : Bytes} (h : ∀ b ∈ bytes, Search.isMark b) :
    Search.marks.after bytes = .marks := by
  have hcolon : Bytes.colon ∉ bytes := fun hmem ↦ absurd (h _ hmem) (by decide)
  rw [Search.after_marks fun b hb ↦ .inl (h b hb), if_neg hcolon]

/-- The search comes to the letter of a conversion either with marks behind it or right after the
percent sign. -/
theorem after_bytes : Search.percent.after m.bytes = .percent ∨
    Search.percent.after m.bytes = .marks := by
  have hmarks := m.isMark_marks
  cases hcolon : m.colon with
  | true =>
    right
    rw [bytes, hcolon]
    exact after_marks hmarks
  | false =>
    have hstart : ∀ b ∈ m.flags ++ m.sizes, Search.start b = .marks := by
      intro b hb
      rcases List.mem_append.1 hb with hflag | hsize
      · exact m.start_flags hcolon b hflag
      · exact (m.isMark_sizes b hsize).2
    rw [bytes, hcolon]
    generalize m.flags ++ m.sizes = marks at hmarks hstart
    cases marks with
    | nil => exact .inl rfl
    | cons b marks =>
      right
      obtain ⟨-, hrest⟩ := List.forall_mem_cons.1 hmarks
      have hfeed : Search.percent.after (b :: marks) = (Search.start b).after marks := rfl
      rw [if_neg Bool.false_ne_true, List.nil_append, hfeed, hstart b List.mem_cons_self,
        after_marks hrest]

end Modifiers

namespace Element

theorem after_bytes (e : Element) :
    Search.text.after e.bytes = if e.takesText then .found else .text := by
  cases e with
  | literal b h =>
    have hfeed : Search.text.feed b = .text := if_neg h
    exact hfeed
  | plain c h =>
    have htable : ∀ c ∈ plainLetters, Search.start (Bytes.ofLetter c) = .text :=
      List.all_iff_forall_prop.1 (by decide)
    exact htable c h
  | conversion m c h =>
    have htable : ∀ c ∈ conversionLetters, ∀ s ∈ [Search.percent, Search.marks],
        s.feed (Bytes.ofLetter c) = if c = 's' then .found else .text :=
      List.all_iff_forall_prop.1 (by decide)
    have hfeed : Search.text.after (conversion m c h).bytes =
        (Search.percent.after m.bytes).feed (Bytes.ofLetter c) := Search.after_append _ _ _
    rw [hfeed]
    rcases m.after_bytes with hbare | hmarked
    · rw [hbare]
      simpa [takesText] using htable c h .percent (by simp)
    · rw [hmarked]
      simpa [takesText] using htable c h .marks (by simp)
  | textLength => rfl
  | parameter i =>
    have htable : ∀ i : Fin Template.parameterCount,
        Search.text.after [Bytes.ofLetter (Nat.digitChar (i + 1))] = .text := by decide
    exact htable i
  | store name h | load name h => rfl
  | character b => rfl
  | number digits h =>
    have hpercent : Bytes.percent ∉ digits ++ [Bytes.ofLetter '\x7d'] := by
      rw [List.mem_append, not_or]
      exact ⟨Spelling.percent_notMem_digits h, by decide⟩
    have hfeed : Search.text.after (number digits h).bytes =
        Search.text.after (digits ++ [Bytes.ofLetter '\x7d']) := rfl
    rw [hfeed, Search.after_text hpercent]
    rfl

theorem directives_bytes (e : Element) (h : e.takesText = false) :
    Scan.text.after e.bytes = .text ∧ ∀ d ∈ Scan.text.directives e.bytes, d.popsText = false := by
  have hspelled : ∀ d : Spelling, d.Legal → d.takesText = false → Scan.text.after d.bytes = .text ∧
      ∀ x ∈ Scan.text.directives d.bytes, x.popsText = false := by
    intro d hlegal hd
    obtain ⟨x, hdirectives, hafter, hx, -⟩ := hlegal.directives
    rw [hdirectives]
    exact ⟨hafter, by simp [hx, hd]⟩
  cases e with
  | literal b hb => exact Scan.after_literals (by simpa [bytes] using hb.symm)
  | plain c hc =>
    have htable : ∀ c ∈ plainLetters, Bytes.letter (Bytes.ofLetter c) = c ∧
        ({} : Format).feed? (Bytes.ofLetter c) = none ∧ c ∉ 's' :: 'l' :: Spelling.takers :=
      List.all_iff_forall_prop.1 (by decide)
    obtain ⟨hletter, hnone, hc⟩ := htable c hc
    simp only [List.mem_cons, not_or] at hc
    refine hspelled { letter := Bytes.ofLetter c } ⟨⟨{}, rfl, hnone⟩, ?_⟩ ?_
    · exact .nothing (hletter.symm ▸ hc.2.2)
    · simp [Spelling.takesText, hletter, hc.1, hc.2.1]
  | conversion m c hc =>
    exact Scan.after_conversion {} m.isMark_bytes hc (by simpa [takesText] using h)
  | textLength => cases h
  | parameter i =>
    exact hspelled { letter := Bytes.ofLetter 'p', operand := _ } ⟨⟨{}, rfl, rfl⟩, .parameter _⟩ rfl
  | store name hname =>
    exact hspelled { letter := Bytes.ofLetter 'P', operand := _ } ⟨⟨{}, rfl, rfl⟩, .store _⟩ rfl
  | load name hname =>
    exact hspelled { letter := Bytes.ofLetter 'g', operand := _ } ⟨⟨{}, rfl, rfl⟩, .load _⟩ rfl
  | character b =>
    exact hspelled { letter := Bytes.ofLetter '\'', operand := _ } ⟨⟨{}, rfl, rfl⟩, .quote _ _⟩ rfl
  | number digits hdigits =>
    exact hspelled { letter := Bytes.ofLetter '\x7b', operand := _ }
      ⟨⟨{}, rfl, rfl⟩, .number hdigits (by decide)⟩ rfl

theorem directives_compose {elements : List Element} (h : ∀ e ∈ elements, e.takesText = false) :
    ∀ d ∈ Scan.text.directives (compose elements), d.popsText = false := by
  induction elements with
  | nil => exact nofun
  | cons e elements ih =>
    obtain ⟨he, helements⟩ := List.forall_mem_cons.1 h
    obtain ⟨hafter, hdirectives⟩ := e.directives_bytes he
    rw [compose, List.flatMap_cons, Scan.directives_append, hafter]
    exact List.forall_mem_append.2 ⟨hdirectives, ih helements⟩

theorem after_compose (elements : List Element) : Search.text.after (compose elements) =
    if ∃ e ∈ elements, e.takesText then .found else .text := by
  induction elements with
  | nil => rfl
  | cons e elements ih =>
    have hfirst : Search.text.after (compose (e :: elements)) =
        (Search.text.after e.bytes).after (compose elements) := Search.after_append _ _ _
    rw [hfirst, e.after_bytes]
    cases he : e.takesText with
    | true => simpa [he] using Search.after_found (compose elements)
    | false => simpa [he] using ih

end Element

theorem takesString_compose (elements : List Element) :
    takesString (compose elements) = true ↔ ∃ e ∈ elements, e.takesText := by
  have h := Element.after_compose elements
  by_cases htext : ∃ e ∈ elements, e.takesText
  · rw [if_pos htext] at h
    exact iff_of_true (decide_eq_true h) htext
  · rw [if_neg htext] at h
    refine iff_of_false ?_ htext
    rw [takesString, decide_eq_true_iff]
    intro hfound
    exact absurd (h.symm.trans hfound) (by decide)

end Terminfo.Template
