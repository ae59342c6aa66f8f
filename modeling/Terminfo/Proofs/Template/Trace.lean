import Mathlib.Data.FinEnum
import Terminfo.Template.Expansion

set_option autoImplicit false

namespace Terminfo

namespace Bytes

abbrev percent : UInt8 := ofLetter '%'

abbrev colon : UInt8 := ofLetter ':'

theorem ofLetter_letter : ∀ b, ofLetter (letter b) = b := by decide +kernel

end Bytes

namespace Template

variable {m : Machine} {s : Scan}

namespace Scan

def after (s : Scan) (bytes : Bytes) : Scan := bytes.foldl (fun s b ↦ (s.feed b).1) s

theorem after_append (s : Scan) (bytes more : Bytes) :
    s.after (bytes ++ more) = (s.after bytes).after more := List.foldl_append

theorem directives_append (s : Scan) (bytes more : Bytes) :
    s.directives (bytes ++ more) = s.directives bytes ++ (s.after bytes).directives more := by
  induction bytes generalizing s with
  | nil => rfl
  | cons b bytes ih => simp only [List.cons_append, directives, ih, List.append_assoc]; rfl

/-- No directive is under the reader after a percent sign but one that has just begun, whatever the
reader took the percent sign for. -/
theorem feed_percent (s : Scan) :
    (s.feed Bytes.percent).1 = .format {} ∨ (s.feed Bytes.percent).1 = .text ∨
      (s.feed Bytes.percent).1 = .quoted := by
  cases s with
  | text => exact .inl rfl
  | format f => exact .inr (.inl rfl)
  | quote => exact .inr (.inr rfl)
  | parameter | store | load | quoted | number n => exact .inr (.inl rfl)

end Scan

namespace Machine

/-- The mode is the one in which a reader stands that leaves no branch out, or what the mode skips
cannot end within a directive of that reader. -/
def Beside (m : Machine) (s : Scan) : Prop :=
  match m.mode with
  | .reading t => t = s
  | .skipping _ _ false => True
  | .skipping _ _ true => s = .format {} ∨ s = .text ∨ s = .quoted

theorem skip_reading {e : BranchEnd} {depth : Nat} {c : Char} {t : Scan}
    (h : Mode.skip e depth c = .reading t) : t = .text ∧ (c = ';' ∨ c = 'e') := by
  unfold Mode.skip at h
  split at h
  · cases h
  · cases h
  · exact ⟨(Mode.reading.inj h).symm, .inl rfl⟩
  · split at h
    · exact ⟨(Mode.reading.inj h).symm, .inr rfl⟩
    · cases h
  · cases h

theorem skip_skipping {e e' : BranchEnd} {depth depth' : Nat} {c : Char} {percent : Bool}
    (h : Mode.skip e depth c = .skipping e' depth' percent) : percent = false := by
  unfold Mode.skip at h
  split at h
  · exact (Mode.skipping.inj h).2.2.symm
  · exact (Mode.skipping.inj h).2.2.symm
  · cases h
  · split at h
    · cases h
    · exact (Mode.skipping.inj h).2.2.symm
  · exact (Mode.skipping.inj h).2.2.symm

theorem push_mode (m : Machine) (x : Item) : (m.push x).mode = m.mode := by
  unfold push
  split <;> rfl

theorem push_stored (m : Machine) (x : Item) : (m.push x).stored = m.stored := by
  unfold push
  split <;> rfl

theorem perform_mode (m : Machine) (d : Directive) :
    (m.perform d).mode = m.mode ∨
      (d = .branch ∨ d = .otherwise) ∧ ∃ e, (m.perform d).mode = .skipping e 0 false := by
  cases d with
  | branch =>
    unfold perform
    by_cases h : m.top = 0
    · exact .inr ⟨.inl rfl, .otherwise, by rw [if_pos h]; rfl⟩
    · exact .inl (by rw [if_neg h]; rfl)
  | otherwise => exact .inr ⟨.inr rfl, .close, rfl⟩
  | parameter b =>
    left
    simp only [perform, pushParameter]
    split
    · exact push_mode _ _
    · rfl
  | store name =>
    left
    simp only [perform, store]
    split
    · rfl
    · split <;> rfl
  | load name =>
    left
    simp only [perform, load]
    split
    · exact push_mode _ _
    · split
      · exact push_mode _ _
      · rfl
  | increment =>
    left
    simp only [perform, increment]
    split
    · rfl
    · split <;> rfl
  | textLength | character b | constant n | binary op | unary op => exact .inl (push_mode _ _)
  | literal b | printNumber f c | printByte | printText f | idle => exact .inl rfl

theorem Beside.feed_reading {t : Scan} (ht : m.mode = .reading t) (h : m.Beside s) (b : UInt8) :
    (m.feed b).Beside (s.feed b).1 := by
  obtain rfl : t = s := by simpa [Beside, ht] using h
  unfold feed
  simp only [Mode.directive?, Mode.feed, ht]
  cases (t.feed b).2 with
  | none => rfl
  | some d =>
    rcases perform_mode { m with mode := .reading (t.feed b).1 } d with hmode | ⟨-, e, hmode⟩
    · simp [Beside, hmode]
    · simp [Beside, hmode]

theorem Beside.feed_skipping {e : BranchEnd} {depth : Nat} {percent : Bool}
    (hm : m.mode = .skipping e depth percent) (h : m.Beside s) (b : UInt8) :
    (m.feed b).Beside (s.feed b).1 := by
  have hmode : (m.feed b).mode = m.mode.feed b := by simp [Machine.feed, Mode.directive?, hm]
  cases percent with
  | false =>
    rw [Beside, hmode, hm, Mode.feed]
    by_cases hb : b = Bytes.percent
    · simpa [hb] using s.feed_percent
    · simp [hb]
  | true =>
    rw [Beside, hmode, hm, Mode.feed]
    cases hskip : Mode.skip e depth (Bytes.letter b) with
    | skipping e' depth' percent => rw [skip_skipping hskip]; trivial
    | reading t =>
      obtain ⟨rfl, hletter⟩ := skip_reading hskip
      have hs : s = .format {} ∨ s = .text ∨ s = .quoted := by simpa [Beside, hm] using h
      rw [← Bytes.ofLetter_letter b]
      rcases hletter with hc | hc <;> rw [hc] <;> rcases hs with rfl | rfl | rfl <;> rfl

theorem Beside.feed (h : m.Beside s) (b : UInt8) : (m.feed b).Beside (s.feed b).1 := by
  cases hm : m.mode with
  | reading t => exact h.feed_reading hm b
  | skipping e depth percent => exact h.feed_skipping hm b

theorem trace_sublist (h : m.Beside s) (template : Bytes) :
    (m.trace template).Sublist (s.directives template) := by
  -- The scan goes on through what the machine skips, and they meet again where that ends.
  induction template generalizing m s with
  | nil => exact .refl _
  | cons b template ih =>
    refine List.Sublist.append ?_ (ih (h.feed b))
    cases hm : m.mode with
    | reading t =>
      obtain rfl : t = s := by simpa [Beside, hm] using h
      exact .refl _
    | skipping e depth percent => exact List.nil_sublist _

theorem trace_eq (hm : m.mode = .reading s) {template : Bytes}
    (h : ∀ d ∈ s.directives template, d ≠ .branch ∧ d ≠ .otherwise) :
    m.trace template = s.directives template := by
  induction template generalizing m s with
  | nil => rfl
  | cons b template ih =>
    have hfeed : (m.feed b).mode = .reading (s.feed b).1 := by
      unfold Machine.feed
      simp only [Mode.directive?, Mode.feed, hm]
      cases hd : (s.feed b).2 with
      | none => rfl
      | some d =>
        rcases perform_mode { m with mode := .reading (s.feed b).1 } d with hmode | ⟨hd', -⟩
        · exact hmode
        · obtain ⟨hbranch, hotherwise⟩ := h d (by simp [Scan.directives, hd])
          exact absurd hd' (not_or.2 ⟨hbranch, hotherwise⟩)
    rw [trace, Scan.directives, ih hfeed fun d hd ↦ h d (List.mem_append_right _ hd), hm]
    rfl

theorem perform_stored {d : Directive} {name : UInt8}
    (hd : d = .store name → isUpper name = false) :
    (m.perform d).stored name = m.stored name := by
  cases d with
  | store other =>
    simp only [perform, store]
    by_cases hupper : isUpper other
    · have hne : name ≠ other := by
        rintro rfl
        rw [hd rfl] at hupper
        cases hupper
      rw [if_pos hupper]
      exact if_neg hne
    · rw [if_neg hupper]
      split <;> rfl
  | parameter b =>
    simp only [perform, pushParameter]
    split
    · exact congrFun (push_stored _ _) name
    · rfl
  | load other =>
    simp only [perform, load]
    split
    · exact congrFun (push_stored _ _) name
    · split
      · exact congrFun (push_stored _ _) name
      · rfl
  | increment =>
    simp only [perform, increment]
    split
    · rfl
    · split <;> rfl
  | branch =>
    simp only [perform]
    split <;> rfl
  | textLength | character b | constant n | binary op | unary op =>
    exact congrFun (push_stored _ _) name
  | literal b | printNumber f c | printByte | printText f | otherwise | idle => rfl

theorem run_stored {template : Bytes} {name : UInt8}
    (h : .store name ∈ m.trace template → isUpper name = false) :
    (m.run template).stored name = m.stored name := by
  induction template generalizing m with
  | nil => rfl
  | cons b template ih =>
    have hrest : ((m.feed b).run template).stored name = (m.feed b).stored name :=
      ih fun hname ↦ h (List.mem_append_right _ hname)
    refine hrest.trans ?_
    unfold feed
    split
    · rename_i d hd
      refine perform_stored (m := { m with mode := m.mode.feed b }) fun hname ↦ ?_
      exact h (List.mem_append_left _ (by simp [hd, hname]))
    · rfl

theorem kind_of_traps {slots : List Int64} {d : Directive} (h : m.traps slots d = true) :
    d.popsText = true ∨ d.divides = true := by
  cases d with
  | printText f | textLength => exact .inl rfl
  | binary op =>
    simp only [traps, Binary.traps, Bool.and_eq_true] at h
    exact .inr h.1.1
  | _ => cases h

theorem exists_of_crashes {slots : List Int64} {template : Bytes}
    (h : m.crashes slots template = true) :
    ∃ d ∈ m.trace template, d.popsText = true ∨ d.divides = true := by
  induction template generalizing m with
  | nil => cases h
  | cons b template ih =>
    rcases Bool.or_eq_true_iff.1 h with hfirst | hrest
    · obtain ⟨d, hd, htraps⟩ := (Option.any_eq_true _ _).1 hfirst
      exact ⟨d, List.mem_append_left _ (by simp [hd]), kind_of_traps htraps⟩
    · obtain ⟨d, hd, hkind⟩ := ih hrest
      exact ⟨d, List.mem_append_right _ hd, hkind⟩

end Machine

theorem texts_eq_nil {template : Bytes}
    (h : ∀ d ∈ Scan.text.directives template, d.popsText = false) :
    (Usage.ofTemplate template).texts = [] := by
  have hadd : ∀ (u : Usage) (d : Directive), d.popsText = false → (u.add d).texts = u.texts := by
    intro u d hd
    have hwant : u.want.texts = u.texts := by
      unfold Usage.want
      split <;> rfl
    cases d with
    | printText f | textLength => cases hd
    | printNumber f c | printByte =>
      simp only [Usage.add, Usage.settle, Usage.shrink]
      split
      · rfl
      · exact hwant
    | binary op | unary op => exact hwant
    | parameter b =>
      simp only [Usage.add]
      split
      · unfold Usage.name
        split <;> rfl
      · rfl
    | _ => rfl
  suffices hfold : ∀ (ds : List Directive) (u : Usage), (∀ d ∈ ds, d.popsText = false) →
      (ds.foldl Usage.add u).texts = u.texts from hfold _ {} h
  intro ds
  induction ds with
  | nil => exact fun _ _ ↦ rfl
  | cons d ds ih =>
    intro u hds
    obtain ⟨hd, hds⟩ := List.forall_mem_cons.1 hds
    exact (ih (u.add d) hds).trans (hadd u d hd)

theorem mem_directives_of_mem_trace {stored : Variables} {parameters : List Int64}
    {template : Bytes} {d : Directive}
    (h : d ∈ (start stored parameters template).trace template) :
    d ∈ Scan.text.directives template := by
  have hbeside : (start stored parameters template).Beside .text := rfl
  exact (Machine.trace_sublist hbeside template).subset h

theorem crashes_eq_false {stored : Variables} {parameters : List Int64} {template : Bytes}
    (h : ∀ d ∈ Scan.text.directives template, d.popsText = false ∧ d.divides = false) :
    crashes stored parameters template = false := by
  refine Bool.eq_false_iff.2 fun hcrashes ↦ ?_
  obtain ⟨d, hd, hkind⟩ := Machine.exists_of_crashes hcrashes
  obtain ⟨htext, hdivides⟩ := h d (mem_directives_of_mem_trace hd)
  simp [htext, hdivides] at hkind

end Template

end Terminfo
