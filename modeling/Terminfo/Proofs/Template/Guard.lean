import Terminfo.Proofs.Template.Spelling
import Terminfo.Template.StringParameter

set_option autoImplicit false

namespace Terminfo.Template

def opens (b : UInt8) : Bool :=
  Bytes.isDigit b || Bytes.letter b ∈ ['\'', 'P', 'g', ':', '#', ' ', '.']

namespace Spelling

def misread (marks : Bytes) : List Char :=
  if Bytes.colon ∈ marks then ['l', 's', '%'] else ['l', '+', '-']

/-- The search reads the directive as the reader does. Without marks it goes wrong only where it
takes an operand for text that has a percent sign. After a mark it takes every operand for text, a
length for no directive and an arithmetic sign for one more mark, and a later colon for a letter. -/
def Followed (d : Spelling) : Prop :=
  match d.marks with
  | [] => Bytes.letter d.letter ∈ ['p', '{'] → Bytes.percent ∉ d.operand
  | _ :: marks =>
    Bytes.letter d.letter ∉ misread marks ∧
      (Bytes.percent ∉ d.operand ∨ ∃ b, d.operand = [Bytes.percent, b] ∧ ¬ opens b)

instance : DecidablePred Followed
  | ⟨[], letter, operand⟩ =>
    inferInstanceAs (Decidable (Bytes.letter letter ∈ ['p', '{'] → Bytes.percent ∉ operand))
  | ⟨_ :: marks, letter, operand⟩ =>
    inferInstanceAs (Decidable (Bytes.letter letter ∉ misread marks ∧
      (Bytes.percent ∉ operand ∨ ∃ b, operand = [Bytes.percent, b] ∧ ¬ opens b)))

end Spelling

namespace Search

def after (s : Search) (bytes : Bytes) : Search := bytes.foldl feed s

theorem after_append (s : Search) (bytes more : Bytes) :
    s.after (bytes ++ more) = (s.after bytes).after more := List.foldl_append

theorem after_found (bytes : Bytes) : found.after bytes = .found := by
  induction bytes with
  | nil => rfl
  | cons b bytes ih => exact ih

theorem after_text {bytes : Bytes} (h : Bytes.percent ∉ bytes) : text.after bytes = .text := by
  induction bytes with
  | nil => rfl
  | cons b bytes ih =>
    obtain ⟨hb, hbytes⟩ := not_or.1 (mt List.mem_cons.2 h)
    rw [after, List.foldl_cons, feed, if_neg (Ne.symm hb)]
    exact ih hbytes

theorem after_marks {bytes : Bytes} (h : ∀ b ∈ bytes, isMark b ∨ b = Bytes.colon) :
    marks.after bytes = if Bytes.colon ∈ bytes then .text else .marks := by
  induction bytes with
  | nil => rfl
  | cons b bytes ih =>
    obtain ⟨hb, hbytes⟩ := List.forall_mem_cons.1 h
    rcases hb with hmark | rfl
    · have hcolon : Bytes.colon ≠ b := by
        rintro rfl
        exact absurd hmark (by decide)
      rw [after, List.foldl_cons, feed, mark, if_pos hmark]
      simpa [after, hcolon] using ih hbytes
    · have hpercent : Bytes.percent ∉ bytes := fun hp ↦ absurd (hbytes _ hp) (by decide)
      rw [if_pos List.mem_cons_self]
      exact after_text hpercent

end Search

namespace Format

variable {f g : Format} {marks : Bytes} {b : UInt8}

def colonAfter? (colon : Bool) (b : UInt8) : Option Bool :=
  if Bytes.isDigit b ∨ Bytes.letter b ∈ ['.', '#', ' '] then some colon
  else if Bytes.letter b = ':' then some true
  else if Bytes.letter b = '-' ∧ colon then some true
  else none

theorem map_colon_feed? (f : Format) (b : UInt8) :
    (f.feed? b).map (·.colon) = colonAfter? f.colon b := by
  unfold feed? colonAfter?
  split
  · simp_all
  · split <;> simp_all

theorem colon_of_feed? (h : f.feed? b = some g) : g.colon = (f.colon || b = Bytes.colon) := by
  have htable : ∀ (colon next : Bool) (b : UInt8), colonAfter? colon b = some next →
      next = (colon || b = Bytes.colon) := by decide +kernel
  exact htable f.colon g.colon b (by rw [← map_colon_feed?, h, Option.map_some])

theorem isMark_of_feed? (h : f.feed? b = some g) : Search.isMark b ∨ b = Bytes.colon := by
  have htable : ∀ (colon next : Bool) (b : UInt8), colonAfter? colon b = some next →
      Search.isMark b ∨ b = Bytes.colon := by decide +kernel
  exact htable f.colon g.colon b (by rw [← map_colon_feed?, h, Option.map_some])

theorem start_of_feed? (hf : f.colon = false) (h : f.feed? b = some g) :
    Search.start b = .marks := by
  have htable : ∀ (next : Bool) (b : UInt8), colonAfter? false b = some next →
      Search.start b = .marks := by decide +kernel
  exact htable g.colon b (by rw [← hf, ← map_colon_feed?, h, Option.map_some])

theorem colon_of_marks (h : marks.foldlM feed? f = some g) :
    g.colon = (f.colon || Bytes.colon ∈ marks) := by
  induction marks generalizing f with
  | nil => simp [← Option.some.inj h]
  | cons b marks ih =>
    rw [List.foldlM_cons] at h
    obtain ⟨f', hb, hrest⟩ := Option.bind_eq_some_iff.1 h
    rw [ih hrest, colon_of_feed? hb]
    simp [Bool.or_assoc, eq_comm]

theorem isMark_of_marks (h : marks.foldlM feed? f = some g) :
    ∀ b ∈ marks, Search.isMark b ∨ b = Bytes.colon := by
  induction marks generalizing f with
  | nil => simp
  | cons b marks ih =>
    rw [List.foldlM_cons] at h
    obtain ⟨f', hb, hrest⟩ := Option.bind_eq_some_iff.1 h
    exact List.forall_mem_cons.2 ⟨isMark_of_feed? hb, ih hrest⟩

end Format

namespace Spelling

variable {d : Spelling} {f : Format} {b : UInt8} {marks : Bytes}

def searched (marks : Bytes) : Search :=
  match marks with
  | [] => .percent
  | _ :: marks => if Bytes.colon ∈ marks then .text else .marks

theorem after_percent (h : marks.foldlM Format.feed? {} = some f) :
    Search.text.after (Bytes.percent :: marks) = searched marks := by
  cases marks with
  | nil => rfl
  | cons b marks =>
    rw [List.foldlM_cons] at h
    obtain ⟨g, hb, hrest⟩ := Option.bind_eq_some_iff.1 h
    have hstart : Search.percent.feed b = .marks := Format.start_of_feed? rfl hb
    have hfeed : Search.text.after (Bytes.percent :: b :: marks) = Search.marks.after marks :=
      congrArg (Search.after · marks) hstart
    rw [hfeed, Search.after_marks (Format.isMark_of_marks hrest), searched]

theorem after_bytes (hd : d.Legal) :
    Search.text.after d.bytes = ((searched d.marks).feed d.letter).after d.operand := by
  obtain ⟨⟨f, hf, -⟩, -⟩ := hd
  have hbytes : d.bytes = (Bytes.percent :: d.marks) ++ d.letter :: d.operand := rfl
  rw [hbytes, Search.after_append, after_percent hf]
  rfl

/-- At the end of the directive the search has found a text or is where the reader is, and then the
directive takes none. -/
def InStep (d : Spelling) : Prop :=
  Search.text.after d.bytes = .found ∨ Search.text.after d.bytes = .text ∧ d.takesText = false

theorem operand_eq_nil {c : Char} {operand : Bytes} (h : Takes c operand) (hc : c ∉ takers) :
    operand = [] := by
  cases h with
  | nothing => rfl
  | _ => simp [takers] at hc

theorem percent_notMem_digits {digits : Bytes} (h : ∀ b ∈ digits, Bytes.isDigit b) :
    Bytes.percent ∉ digits := fun hmem ↦ absurd (h _ hmem) (by decide)

theorem after_percent_append {bytes : Bytes} (h : Bytes.percent ∉ bytes) :
    Search.text.after (bytes ++ [Bytes.percent]) = .percent := by
  rw [Search.after_append, Search.after_text h]
  rfl

theorem after_operand {c : Char} {operand : Bytes} (h : Takes c operand) :
    (Search.text.after operand = .found ∨ Search.text.after operand = .text) ↔
      (Bytes.percent ∉ operand ∨ ∃ b, operand = [Bytes.percent, b] ∧ ¬ opens b) := by
  by_cases hmem : Bytes.percent ∈ operand
  · cases h with
    | parameter b | store b | load b =>
      obtain rfl : Bytes.percent = b := List.mem_singleton.1 hmem
      simp [show Search.text.after [Bytes.percent] = .percent from rfl]
    | quote b last =>
      have htable : ∀ b : UInt8, (Search.start b = .found ∨ Search.start b = .text) ↔ ¬ opens b := by
        decide +kernel
      by_cases hb : Bytes.percent = b
      · subst hb
        have hafter : Search.text.after [Bytes.percent, last] = Search.start last := rfl
        rw [hafter, htable last]
        simp
      · obtain rfl : Bytes.percent = last := by simpa [hb] using hmem
        have hfirst : Bytes.percent ∉ [b] := by simpa using hb
        have hafter := after_percent_append hfirst
        rw [List.singleton_append] at hafter
        simp [hafter, Ne.symm hb]
    | @number digits last hdigits hlast =>
      have hfirst := percent_notMem_digits hdigits
      obtain rfl : Bytes.percent = last := by simpa [hfirst] using hmem
      rw [after_percent_append hfirst]
      have hshape (b : UInt8) : digits ++ [Bytes.percent] ≠ [Bytes.percent, b] := by
        rintro h
        cases digits with
        | nil => simp at h
        | cons x digits => exact hfirst (by simp [(List.cons.inj h).1])
      simp [hshape]
    | nothing => simp at hmem
  · simp [hmem, Search.after_text hmem]

theorem after_last {first : Bytes} (last : UInt8) (h : Bytes.percent ∉ first) :
    Bytes.percent ∉ first ++ [last] ↔ Search.text.after (first ++ [last]) = .found ∨
      Search.text.after (first ++ [last]) = .text := by
  by_cases hlast : Bytes.percent = last
  · subst hlast
    simp [after_percent_append h]
  · have hmem : Bytes.percent ∉ first ++ [last] := by simp [h, hlast]
    simp [Search.after_text hmem, hmem]

theorem colonAfter?_letter {c : Bool} (hf : d.format? = some f) (hletter : f.feed? d.letter = none)
    (hc : (Bytes.colon ∈ d.marks : Bool) = c) : Format.colonAfter? c d.letter = none := by
  have hcolon : f.colon = c := by
    rw [Format.colon_of_marks hf, ← hc]
    rfl
  rw [← hcolon, ← Format.map_colon_feed?, hletter, Option.map_none]

theorem followed_iff_bare (hd : d.Legal) (hmarks : d.marks = []) : d.Followed ↔ d.InStep := by
  have hafter := after_bytes hd
  rw [hmarks] at hafter
  obtain ⟨⟨f, hf, hletter⟩, htakes⟩ := hd
  have hnone : Format.colonAfter? false d.letter = none :=
    colonAfter?_letter hf hletter (by simp [hmarks])
  rw [InStep, hafter, Followed, hmarks, takesText]
  generalize hc : Bytes.letter d.letter = c at htakes ⊢
  have hb : d.letter = Bytes.ofLetter c := by rw [← hc, Bytes.ofLetter_letter]
  generalize d.operand = operand at htakes ⊢
  cases htakes with
  | parameter b =>
    have hfeed : (searched []).feed d.letter = .text := by rw [hb]; rfl
    rw [hfeed]
    simpa using after_last b List.not_mem_nil
  | number hdigits hlast =>
    have hfeed : (searched []).feed d.letter = .text := by rw [hb]; rfl
    rw [hfeed]
    simpa using after_last _ (percent_notMem_digits hdigits)
  | store b | load b =>
    have hfeed : (searched []).feed d.letter = .operand := by rw [hb]; rfl
    rw [hfeed]
    simp [show Search.operand.after [b] = .text from rfl]
  | quote b last =>
    have hfeed : (searched []).feed d.letter = .quote := by rw [hb]; rfl
    rw [hfeed]
    simp [show Search.quote.after [b, last] = .text from rfl]
  | nothing hnothing =>
    have htable : ∀ b : UInt8, Format.colonAfter? false b = none →
        Bytes.letter b ∉ takers → Search.start b =
          if Bytes.letter b = 's' ∨ Bytes.letter b = 'l' then .found else .text := by
      decide +kernel
    have hfeed : ((searched []).feed d.letter).after [] = Search.start d.letter := rfl
    rw [hfeed, htable d.letter hnone (hc ▸ hnothing), hc]
    by_cases h : c = 's' ∨ c = 'l'
    · simp [h]
    · simp [not_or.1 h]

theorem feed_letter (b : UInt8) (marks : Bytes) {letter : UInt8} {c : Bool}
    (h : Format.colonAfter? c letter = none) :
    (Bytes.letter letter ∉ misread marks →
      (searched (b :: marks)).feed letter = .found ∧ Bytes.letter letter = 's' ∨
        (searched (b :: marks)).feed letter = .text ∧
          ¬ (Bytes.letter letter = 's' ∨ Bytes.letter letter = 'l')) ∧
    (Bytes.letter letter ∈ misread marks → (searched (b :: marks)).feed letter ≠ .found ∧
      ((searched (b :: marks)).feed letter = .text →
        Bytes.letter letter = 's' ∨ Bytes.letter letter = 'l')) := by
  rw [misread, searched]
  by_cases hcolon : Bytes.colon ∈ marks
  · rw [if_pos hcolon, if_pos hcolon]
    clear h
    revert letter
    decide +kernel
  · rw [if_neg hcolon, if_neg hcolon]
    revert letter c
    decide +kernel

theorem misread_subset (marks : Bytes) : misread marks ⊆ ['l', 's', '%', '+', '-'] := by
  unfold misread
  split <;> decide

theorem takesText_eq (d : Spelling) : d.takesText = false ↔
    ¬ (Bytes.letter d.letter = 's' ∨ Bytes.letter d.letter = 'l') := by simp [takesText]

theorem followed_iff_marked (hd : d.Legal) {b : UInt8} (hmarks : d.marks = b :: marks) :
    d.Followed ↔ d.InStep := by
  have hafter := after_bytes hd
  obtain ⟨⟨f, hf, hletter⟩, htakes⟩ := hd
  obtain ⟨hread, hmisread⟩ := feed_letter b marks (colonAfter?_letter hf hletter rfl)
  have hnothing : ∀ c ∈ ['l', 's', '%', '+', '-'], c ∉ takers := by simp [takers]
  rw [InStep, hafter, Followed, hmarks, takesText_eq]
  by_cases h : Bytes.letter d.letter ∈ misread marks
  · obtain ⟨hfound, htext⟩ := hmisread h
    rw [operand_eq_nil htakes (hnothing _ (misread_subset marks h))]
    constructor
    · intro hfollowed
      exact absurd h hfollowed.1
    · rintro (hl | ⟨hl, hneither⟩)
      · exact absurd hl hfound
      · exact absurd (htext hl) hneither
  · rcases hread h with ⟨hfound, hs⟩ | ⟨htext, hneither⟩
    · rw [hfound, Search.after_found, operand_eq_nil htakes (hnothing _ (by simp [hs]))]
      simp [h]
    · rw [htext]
      simp only [h, hneither, not_false_eq_true, true_and, and_true]
      exact (after_operand htakes).symm

theorem followed_iff (hd : d.Legal) : d.Followed ↔ d.InStep := by
  cases hmarks : d.marks with
  | nil => exact followed_iff_bare hd hmarks
  | cons b marks => exact followed_iff_marked hd hmarks

theorem followed_of_branch (hd : d.Legal) (h : Bytes.letter d.letter ∈ ['t', 'e']) :
    d.Followed := by
  have hnothing : ∀ c ∈ ['t', 'e'], c ∉ takers := by simp [takers]
  have hread : ∀ c ∈ ['t', 'e'], c ∉ ['l', 's', '%', '+', '-'] := by simp
  have hoperand := operand_eq_nil hd.takes (hnothing _ h)
  unfold Followed
  split
  · simp [hoperand]
  · rename_i marks _
    refine ⟨fun hmem ↦ hread _ h (misread_subset marks hmem), .inl ?_⟩
    simp [hoperand]

/-- A directive that the search reads in another way than the reader hides a text from it, if not
its own, then that of a plain directive right after it. -/
theorem missed (hd : d.Legal) (h : ¬ d.Followed) :
    ∃ u, (u = d.bytes ∨ u = d.bytes ++ [Bytes.percent, Bytes.ofLetter 's']) ∧
      takesString u = false ∧
      ∀ m : Machine, m.mode = .reading .text → ∃ x ∈ m.trace u, x.popsText = true := by
  obtain ⟨hfound, htext⟩ := not_or.1 (mt (followed_iff hd).2 h)
  obtain ⟨x, hx, hafter, hpops, hbranches⟩ := hd.directives
  have hbranch : x ≠ .branch ∧ x ≠ .otherwise :=
    not_or.1 fun hx ↦ h (followed_of_branch hd (hbranches hx))
  cases ht : d.takesText with
  | true =>
    refine ⟨d.bytes, .inl rfl, decide_eq_false hfound, fun m hm ↦ ⟨x, ?_, hpops.trans ht⟩⟩
    rw [Machine.trace_eq hm] <;> simp [hx, hbranch]
  | false =>
    have hsearch : takesString (d.bytes ++ [Bytes.percent, Bytes.ofLetter 's']) = false := by
      refine decide_eq_false ?_
      change Search.text.after _ ≠ _
      rw [Search.after_append]
      generalize Search.text.after d.bytes = s at hfound htext
      cases s <;> simp_all <;> decide
    have hdirectives : Scan.text.directives (d.bytes ++ [Bytes.percent, Bytes.ofLetter 's']) =
        [x, .printText {}] := by
      rw [Scan.directives_append, hx, hafter]
      rfl
    refine ⟨_, .inr rfl, hsearch, fun m hm ↦ ⟨.printText {}, ?_, rfl⟩⟩
    rw [Machine.trace_eq hm] <;> simp [hdirectives, hbranch]

end Spelling

namespace Written

variable {t : Bytes} {ds : List Spelling}

theorem legal (h : Written t ds) : ∀ d ∈ ds, d.Legal := by
  induction h with
  | nil | cut => simp
  | literal _ _ ih => exact ih
  | directive hd _ ih => exact List.forall_mem_cons.2 ⟨hd, ih⟩

theorem bytes_subset (h : Written t ds) : ∀ d ∈ ds, d.bytes ⊆ t := by
  induction h with
  | nil | cut => simp
  | literal _ _ ih => exact fun d hd ↦ List.subset_cons_of_subset _ (ih d hd)
  | directive _ _ ih =>
    exact List.forall_mem_cons.2 ⟨List.subset_append_left _ _,
      fun d hd ↦ List.subset_append_of_subset_right _ (ih d hd)⟩

theorem popsText (h : Written t ds) (hds : ∀ d ∈ ds, d.Followed)
    (ht : Search.text.after t ≠ .found) : ∀ x ∈ Scan.text.directives t, x.popsText = false := by
  induction h with
  | nil => simp [Scan.directives]
  | @literal b t ds hb _ ih =>
    have hscan : Scan.text.feed b = (.text, some (.literal b)) := by rw [Scan.feed, if_neg hb]
    have hsearch : Search.text.after (b :: t) = Search.text.after t :=
      congrArg (Search.after · t) (if_neg hb)
    rw [Scan.directives, hscan]
    exact List.forall_mem_cons.2 ⟨rfl, ih hds (hsearch ▸ ht)⟩
  | @directive d t ds hd _ ih =>
    obtain ⟨hfollowed, hrest⟩ := List.forall_mem_cons.1 hds
    obtain ⟨x, hx, hafter, hpops, -⟩ := hd.directives
    rw [Search.after_append] at ht
    rcases (Spelling.followed_iff hd).1 hfollowed with hfound | ⟨htext, hno⟩
    · exact absurd (hfound ▸ Search.after_found t) ht
    · rw [Scan.directives_append, hx, hafter]
      exact List.forall_mem_cons.2 ⟨hpops.trans hno, ih hrest (htext ▸ ht)⟩
  | cut hs hd => exact hd.popsText hs

end Written

/-- When the search for texts can be trusted with a template. It lets through none that takes a
text if it reads every directive of it as the reader does. Each directive of which that is not true
makes it let a template through, which takes a text whatever the parameters and variables are. -/
theorem takesString_exact (t : Bytes) :
    (takesString t = false → (∀ d ∈ spellings t, d.Followed) → ∀ stored parameters,
      ∀ x ∈ (start stored parameters t).trace t, x.popsText = false) ∧
    (0 ∉ t → ∀ d ∈ spellings t, ¬ d.Followed →
      ∃ u, (u = d.bytes ∨ u = d.bytes ++ [Bytes.percent, Bytes.ofLetter 's']) ∧ 0 ∉ u ∧
        takesString u = false ∧ ∀ stored parameters,
          ∃ x ∈ (start stored parameters u).trace u, x.popsText = true) := by
  constructor
  · intro ht hds stored parameters x hx
    have hfound : Search.text.after t ≠ .found := of_decide_eq_false ht
    have hbeside : (start stored parameters t).Beside .text := rfl
    exact (written t).popsText hds hfound x ((Machine.trace_sublist hbeside t).subset hx)
  · intro ht d hd hnot
    obtain ⟨u, hu, hsearch, hpops⟩ := Spelling.missed ((written t).legal d hd) hnot
    refine ⟨u, hu, ?_, hsearch, fun stored parameters ↦ hpops _ rfl⟩
    have hzero : 0 ∉ d.bytes := fun h ↦ ht ((written t).bytes_subset d hd h)
    rcases hu with rfl | rfl
    · exact hzero
    · simpa [hzero] using by decide

theorem takesString_exact_sum :
    (∀ stored parameters, ∀ x ∈ (start stored parameters (Bytes.ofText "%p1%:-5d")).trace
      (Bytes.ofText "%p1%:-5d"), x.popsText = false) ∧
    ∃ u, (u = Bytes.ofText "%#+" ∨ u = Bytes.ofText "%#+%s") ∧ 0 ∉ u ∧ takesString u = false ∧
      ∀ stored parameters, ∃ x ∈ (start stored parameters u).trace u, x.popsText = true :=
  ⟨(takesString_exact (Bytes.ofText "%p1%:-5d")).1 (by decide +kernel) (by decide +kernel),
    (takesString_exact (Bytes.ofText "%#+")).2 (by decide +kernel)
      { marks := [Bytes.ofLetter '#'], letter := Bytes.ofLetter '+' }
      (by decide +kernel) (by decide +kernel)⟩

theorem takesString_misses_length :
    ¬ ∀ t, 0 ∉ t → takesString t = false → ∀ stored parameters,
      ∀ x ∈ (start stored parameters t).trace t, x.popsText = false := by
  intro h
  have htrace : .textLength ∈ (start Variables.zero [] (Bytes.ofText "%#l%d")).trace
      (Bytes.ofText "%#l%d") := by decide +kernel
  have hpops := h (Bytes.ofText "%#l%d") (by decide +kernel) (by decide +kernel) _ _ _ htrace
  exact absurd hpops (by decide)

end Terminfo.Template
