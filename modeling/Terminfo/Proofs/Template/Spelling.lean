import Terminfo.Proofs.Template.Trace

set_option autoImplicit false

namespace Terminfo.Template

structure Spelling where
  marks : Bytes := []
  letter : UInt8 := 0
  operand : Bytes := []
  deriving DecidableEq, Repr

namespace Spelling

def bytes (d : Spelling) : Bytes := Bytes.percent :: (d.marks ++ d.letter :: d.operand)

def takesText (d : Spelling) : Bool := Bytes.letter d.letter = 's' || Bytes.letter d.letter = 'l'

def extend (d : Spelling) (s : Scan) (b : UInt8) : Spelling :=
  match s with
  | .text => {}
  | .format f =>
    if (f.feed? b).isSome then { d with marks := d.marks ++ [b] } else { d with letter := b }
  | _ => { d with operand := d.operand ++ [b] }

def takers : List Char := ['p', 'P', 'g', '\'', '{']

inductive Takes : Char → Bytes → Prop
  | parameter (b : UInt8) : Takes 'p' [b]
  | store (b : UInt8) : Takes 'P' [b]
  | load (b : UInt8) : Takes 'g' [b]
  | quote (b last : UInt8) : Takes '\'' [b, last]
  | number {digits : Bytes} {last : UInt8} (h : ∀ b ∈ digits, Bytes.isDigit b)
      (hlast : ¬ Bytes.isDigit last) : Takes '{' (digits ++ [last])
  | nothing {c : Char} (h : c ∉ takers) : Takes c []

def format? (d : Spelling) : Option Format := d.marks.foldlM Format.feed? {}

/-- The reader takes the spelling for one directive. -/
structure Legal (d : Spelling) : Prop where
  format : ∃ f, d.format? = some f ∧ f.feed? d.letter = none
  takes : Takes (Bytes.letter d.letter) d.operand

/-- The spelling is what the reader has seen of a directive. Back in the text it has seen all. -/
def Reaches (d : Spelling) (s : Scan) : Prop :=
  let operand (c : Char) (p : Bytes → Prop) : Prop :=
    (∃ f, d.format? = some f ∧ f.feed? d.letter = none) ∧ Bytes.letter d.letter = c ∧ p d.operand
  match s with
  | .text => d.Legal
  | .format f => d.format? = some f ∧ d.operand = []
  | .parameter => operand 'p' (· = [])
  | .store => operand 'P' (· = [])
  | .load => operand 'g' (· = [])
  | .quote => operand '\'' (· = [])
  | .quoted => operand '\'' (∃ b, · = [b])
  | .number _ => operand '{' (∀ b ∈ ·, Bytes.isDigit b)

def seen (d : Spelling) : Scan → Bytes
  | .format _ => Bytes.percent :: d.marks
  | _ => d.bytes

end Spelling

/-- The directives of a template, as they are written. One that breaks off is none. -/
def Scan.spellings : Scan → Spelling → Bytes → List Spelling
  | _, _, [] => []
  | s, d, b :: bs =>
    let next := (s.feed b).1
    let rest := next.spellings (d.extend s b) bs
    if s ≠ .text ∧ next = .text then d.extend s b :: rest else rest

def spellings (template : Bytes) : List Spelling := Scan.text.spellings {} template

namespace Spelling

variable {d : Spelling} {s : Scan} {f : Format} {b : UInt8}

theorem seen_extend {t : Scan} (hd : d.operand = []) (hb : f.feed? b = none)
    (ht : ∀ g, t ≠ .format g) : (d.extend (.format f) b).seen t = d.seen (.format f) ++ [b] := by
  have hbytes : (d.extend (.format f) b).bytes = d.seen (.format f) ++ [b] := by
    simp [extend, hb, bytes, seen, hd]
  cases t with
  | format g => exact absurd rfl (ht g)
  | _ => exact hbytes

theorem Reaches.feed_letter (hd : d.Reaches (.format f)) (hb : f.feed? b = none) :
    (d.extend (.format f) b).Reaches (Scan.ofLetter f b).1 ∧
      (d.extend (.format f) b).seen (Scan.ofLetter f b).1 = d.seen (.format f) ++ [b] := by
  obtain ⟨hformat, hoperand⟩ := hd
  have hextend : d.extend (.format f) b = { d with letter := b } := by simp [extend, hb]
  have hletter : ∃ g, ({ d with letter := b } : Spelling).format? = some g ∧ g.feed? b = none :=
    ⟨f, hformat, hb⟩
  refine ⟨?_, ?_⟩
  · rw [hextend]
    unfold Scan.ofLetter
    split
    · exact ⟨hletter, ‹_›, hoperand⟩
    · exact ⟨hletter, ‹_›, hoperand⟩
    · exact ⟨hletter, ‹_›, hoperand⟩
    · exact ⟨hletter, ‹_›, hoperand⟩
    · exact ⟨hletter, ‹_›, by simp [hoperand]⟩
    · refine ⟨hletter, ?_⟩
      rw [hoperand]
      exact .nothing (by simp_all [takers])
  · refine seen_extend hoperand hb ?_
    intro g
    unfold Scan.ofLetter
    split <;> exact fun h ↦ nomatch h

theorem Reaches.feed_format (hd : d.Reaches (.format f)) (b : UInt8) :
    (d.extend (.format f) b).Reaches (Scan.feed (.format f) b).1 ∧
      (d.extend (.format f) b).seen (Scan.feed (.format f) b).1 = d.seen (.format f) ++ [b] := by
  cases hb : f.feed? b with
  | some f' =>
    obtain ⟨hformat, hoperand⟩ := hd
    have hmarks : (d.marks ++ [b]).foldlM Format.feed? {} = some f' := by
      rw [List.foldlM_append, show d.marks.foldlM Format.feed? {} = some f from hformat]
      simpa using hb
    simp only [extend, Scan.feed, hb, Option.isSome_some, if_pos]
    exact ⟨⟨hmarks, hoperand⟩, rfl⟩
  | none =>
    simp only [Scan.feed, hb]
    exact hd.feed_letter hb

theorem Reaches.feed (hs : s ≠ .text) (hd : d.Reaches s) (b : UInt8) :
    (d.extend s b).Reaches (s.feed b).1 ∧
      (d.extend s b).seen (s.feed b).1 = d.seen s ++ [b] := by
  have hbytes : ({ d with operand := d.operand ++ [b] } : Spelling).bytes = d.bytes ++ [b] := by
    simp [bytes]
  cases s with
  | text => exact absurd rfl hs
  | format f => exact hd.feed_format b
  | parameter =>
    obtain ⟨hformat, hletter, hoperand⟩ := hd
    refine ⟨⟨hformat, ?_⟩, hbytes⟩
    simpa [extend, hletter, hoperand] using Takes.parameter b
  | store =>
    obtain ⟨hformat, hletter, hoperand⟩ := hd
    refine ⟨⟨hformat, ?_⟩, hbytes⟩
    simpa [extend, hletter, hoperand] using Takes.store b
  | load =>
    obtain ⟨hformat, hletter, hoperand⟩ := hd
    refine ⟨⟨hformat, ?_⟩, hbytes⟩
    simpa [extend, hletter, hoperand] using Takes.load b
  | quote =>
    obtain ⟨hformat, hletter, hoperand⟩ := hd
    exact ⟨⟨hformat, hletter, b, by simp [extend, hoperand]⟩, hbytes⟩
  | quoted =>
    obtain ⟨hformat, hletter, first, hoperand⟩ := hd
    refine ⟨⟨hformat, ?_⟩, hbytes⟩
    simpa [extend, hletter, hoperand] using Takes.quote first b
  | number n =>
    obtain ⟨hformat, hletter, hoperand⟩ := hd
    unfold Scan.feed
    cases hb : Bytes.isDigit b with
    | true =>
      refine ⟨⟨hformat, hletter, ?_⟩, hbytes⟩
      intro x hx
      rcases List.mem_append.1 hx with hold | hnew
      · exact hoperand x hold
      · rwa [List.mem_singleton.1 hnew]
    | false =>
      refine ⟨⟨hformat, ?_⟩, hbytes⟩
      simpa [extend, hletter] using Takes.number hoperand (by simp [hb])

end Spelling

inductive Written : Bytes → List Spelling → Prop
  | nil : Written [] []
  | literal {b : UInt8} {t : Bytes} {ds : List Spelling} (h : b ≠ Bytes.percent) (ht : Written t ds) :
      Written (b :: t) ds
  | directive {d : Spelling} {t : Bytes} {ds : List Spelling} (hd : d.Legal) (ht : Written t ds) :
      Written (d.bytes ++ t) (d :: ds)
  | cut {d : Spelling} {s : Scan} (hs : s ≠ .text) (hd : d.Reaches s) : Written (d.seen s) []

theorem written_spellings (s : Scan) (d : Spelling) (t : Bytes) :
    (s = .text → Written t (s.spellings d t)) ∧
      (s ≠ .text → d.Reaches s → Written (d.seen s ++ t) (s.spellings d t)) := by
  induction t generalizing s d with
  | nil =>
    refine ⟨fun _ ↦ .nil, ?_⟩
    intro hs hd
    rw [List.append_nil]
    exact .cut hs hd
  | cons b t ih =>
    obtain ⟨htext, hrest⟩ := ih (s.feed b).1 (d.extend s b)
    constructor
    · intro hs
      subst hs
      by_cases hb : b = Bytes.percent
      · subst hb
        exact hrest Scan.noConfusion ⟨rfl, rfl⟩
      · have hfeed : (Scan.text.feed b).1 = .text := by rw [Scan.feed, if_neg hb]
        simpa [Scan.spellings] using Written.literal hb (htext hfeed)
    · intro hs hd
      obtain ⟨hreach, hseen⟩ := hd.feed hs b
      rw [List.append_cons, ← hseen, Scan.spellings]
      by_cases hnext : (s.feed b).1 = .text
      · rw [if_pos ⟨hs, hnext⟩]
        rw [hnext] at hreach ⊢
        exact .directive hreach (hnext ▸ htext hnext)
      · rw [if_neg fun h ↦ hnext h.2]
        exact hrest hnext hreach

theorem written (t : Bytes) : Written t (spellings t) := (written_spellings .text {} t).1 rfl

namespace Scan

theorem after_marks {f g : Format} {marks : Bytes} (h : marks.foldlM Format.feed? f = some g) :
    (format f).after marks = .format g ∧ (format f).directives marks = [] := by
  induction marks generalizing f with
  | nil => exact ⟨congrArg format (Option.some.inj h), rfl⟩
  | cons b marks ih =>
    rw [List.foldlM_cons] at h
    obtain ⟨f', hb, hrest⟩ := Option.bind_eq_some_iff.1 h
    have hfeed : (format f).feed b = (format f', none) := by simp only [Scan.feed, hb]
    obtain ⟨hafter, hdirectives⟩ := ih hrest
    refine ⟨?_, ?_⟩
    · rw [after, List.foldl_cons, hfeed]
      exact hafter
    · rw [directives, hfeed]
      exact hdirectives

theorem after_digits (n : Int32) {digits : Bytes} (h : ∀ b ∈ digits, Bytes.isDigit b) :
    ∃ k, (number n).after digits = .number k ∧ (number n).directives digits = [] := by
  induction digits generalizing n with
  | nil => exact ⟨n, rfl, rfl⟩
  | cons b digits ih =>
    obtain ⟨hb, hdigits⟩ := List.forall_mem_cons.1 h
    obtain ⟨k, hafter, hdirectives⟩ := ih (n * 10 + Int32.ofNat (Bytes.digit b)) hdigits
    have hfeed : (number n).feed b = (number (n * 10 + Int32.ofNat (Bytes.digit b)), none) := by
      rw [Scan.feed, if_pos hb]
    refine ⟨k, ?_, ?_⟩
    · rw [after, List.foldl_cons, hfeed]
      exact hafter
    · rw [directives, hfeed]
      exact hdirectives

theorem after_number (n : Int32) {digits : Bytes} {last : UInt8}
    (h : ∀ b ∈ digits, Bytes.isDigit b) (hlast : ¬ Bytes.isDigit last) :
    ∃ k, (number n).after (digits ++ [last]) = .text ∧
      (number n).directives (digits ++ [last]) = [.constant k] := by
  obtain ⟨k, hafter, hdirectives⟩ := after_digits n h
  have hfeed : (number k).feed last = (.text, some (.constant k)) := by
    rw [Scan.feed, if_neg hlast]
  refine ⟨k, ?_, ?_⟩
  · rw [after_append, hafter, after, List.foldl_cons, hfeed]
    rfl
  · rw [directives_append, hafter, hdirectives, directives, hfeed]
    rfl

theorem ofLetter_nothing (f : Format) {b : UInt8}
    (h : Bytes.letter b ∉ Spelling.takers) :
    ofLetter f b = (.text, some (.ofLetter f (Bytes.letter b))) := by
  unfold ofLetter
  split <;> simp_all [Spelling.takers]

end Scan

namespace Directive

theorem popsText_ofLetter (f : Format) (c : Char) :
    (ofLetter f c).popsText = (decide (c = 's') || decide (c = 'l')) := by
  by_cases hs : c = 's'
  · subst hs
    rfl
  by_cases hl : c = 'l'
  · subst hl
    rfl
  rw [decide_eq_false hs, decide_eq_false hl]
  unfold ofLetter
  split
  · rfl
  · rfl
  · split <;> first | rfl | contradiction

theorem branches_ofLetter {f : Format} {c : Char}
    (h : ofLetter f c = .branch ∨ ofLetter f c = .otherwise) : c ∈ ['t', 'e'] := by
  unfold ofLetter at h
  split at h
  · simp at h
  · simp at h
  · split at h <;> simp_all

end Directive

namespace Spelling

variable {d : Spelling}

theorem after_format {f : Format} (hf : d.format? = some f) :
    Scan.text.after (Bytes.percent :: d.marks) = .format f ∧
      Scan.text.directives (Bytes.percent :: d.marks) = [] := Scan.after_marks hf

theorem directives_bytes {f : Format} (hf : d.format? = some f) (hletter : f.feed? d.letter = none) :
    Scan.text.directives d.bytes = (Scan.ofLetter f d.letter).2.toList ++
        (Scan.ofLetter f d.letter).1.directives d.operand ∧
      Scan.text.after d.bytes = (Scan.ofLetter f d.letter).1.after d.operand := by
  obtain ⟨hafter, hdirectives⟩ := after_format hf
  have hbytes : d.bytes = (Bytes.percent :: d.marks) ++ d.letter :: d.operand := rfl
  have hfeed : (Scan.format f).feed d.letter = Scan.ofLetter f d.letter := by
    simp only [Scan.feed, hletter]
  rw [hbytes, Scan.directives_append, Scan.after_append, hafter, hdirectives, ← hfeed]
  exact ⟨rfl, rfl⟩

theorem Legal.directives (hd : d.Legal) :
    ∃ x, Scan.text.directives d.bytes = [x] ∧ Scan.text.after d.bytes = .text ∧
      x.popsText = d.takesText ∧
      (x = .branch ∨ x = .otherwise → Bytes.letter d.letter ∈ ['t', 'e']) := by
  obtain ⟨⟨f, hf, hletter⟩, htakes⟩ := hd
  obtain ⟨hdirectives, hafter⟩ := directives_bytes hf hletter
  rw [hdirectives, hafter, takesText]
  generalize hc : Bytes.letter d.letter = c at htakes ⊢
  generalize d.operand = operand at htakes ⊢
  cases htakes with
  | parameter b =>
    simp only [Scan.ofLetter, hc]
    exact ⟨.parameter b, rfl, rfl, rfl, by simp⟩
  | store b =>
    simp only [Scan.ofLetter, hc]
    exact ⟨.store b, rfl, rfl, rfl, by simp⟩
  | load b =>
    simp only [Scan.ofLetter, hc]
    exact ⟨.load b, rfl, rfl, rfl, by simp⟩
  | quote b last =>
    simp only [Scan.ofLetter, hc]
    exact ⟨.character b, rfl, rfl, rfl, by simp⟩
  | @number digits last hdigits hlast =>
    obtain ⟨n, hafter, hdirectives⟩ := Scan.after_number 0 hdigits hlast
    simp only [Scan.ofLetter, hc, hafter, hdirectives]
    exact ⟨.constant n, rfl, trivial, rfl, by simp⟩
  | nothing hnothing =>
    rw [Scan.ofLetter_nothing f (hc ▸ hnothing), hc]
    exact ⟨_, rfl, rfl, Directive.popsText_ofLetter f c, Directive.branches_ofLetter⟩

theorem Reaches.popsText {s : Scan} (hs : s ≠ .text) (hd : d.Reaches s) :
    ∀ x ∈ Scan.text.directives (d.seen s), x.popsText = false := by
  cases s with
  | text => exact absurd rfl hs
  | format f => simp [seen, (after_format hd.1).2]
  | parameter | store | load | quote =>
    obtain ⟨⟨f, hf, hletter⟩, hc, hoperand⟩ := hd
    simp [seen, (directives_bytes hf hletter).1, Scan.ofLetter, hc, hoperand, Scan.directives]
  | quoted =>
    obtain ⟨⟨f, hf, hletter⟩, hc, b, hoperand⟩ := hd
    simp [seen, (directives_bytes hf hletter).1, Scan.ofLetter, hc, hoperand, Scan.directives,
      Scan.feed, Directive.popsText]
  | number n =>
    obtain ⟨⟨f, hf, hletter⟩, hc, hoperand⟩ := hd
    obtain ⟨k, -, hdirectives⟩ := Scan.after_digits 0 hoperand
    simp [seen, (directives_bytes hf hletter).1, Scan.ofLetter, hc, hdirectives]

end Spelling

end Terminfo.Template
