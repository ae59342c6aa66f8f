import Terminfo.Text.Blank
import Terminfo.Text.Integer
import Mathlib.Data.List.DropRight

set_option autoImplicit false

namespace Terminfo.Text

theorem toInt32?_toInt (n : Int32) : toInt32? n.toInt = some n := by
  have hmin : -2147483648 ≤ n.toInt := n.le_toInt
  have hmax : n.toInt ≤ Int32.maxValue.toInt := n.toInt_le
  simp [toInt32?, hmin, hmax]

theorem toInt32?_eq_some_iff {i : Int} {n : Int32} : toInt32? i = some n ↔ i = n.toInt := by
  refine ⟨fun h ↦ ?_, fun h ↦ h ▸ toInt32?_toInt n⟩
  obtain ⟨⟨hmin, hmax⟩, rfl⟩ : (Int32.minValue.toInt ≤ i ∧ i ≤ Int32.maxValue.toInt) ∧
      Int32.ofInt i = n := by
    simpa [toInt32?] using h
  have hlt : i < 2 ^ 31 := Int.lt_add_one_of_le hmax
  exact (Int32.toInt_ofInt_of_le hmin hlt).symm

/-- Digits in base ten, with or without a sign, and the number that they stand for. -/
inductive Numeral : List Char → Int → Prop
  | plain {ds : List Char} : ds ≠ [] → (∀ c ∈ ds, c.isDigit) →
      Numeral ds (Nat.ofDigitChars 10 ds 0)
  | plus {ds : List Char} : ds ≠ [] → (∀ c ∈ ds, c.isDigit) →
      Numeral ('+' :: ds) (Nat.ofDigitChars 10 ds 0)
  | minus {ds : List Char} : ds ≠ [] → (∀ c ∈ ds, c.isDigit) →
      Numeral ('-' :: ds) (-(Nat.ofDigitChars 10 ds 0 : Int))

section Digits

variable {c : Char} {cs : List Char} {d m n : Nat} {i : Int}

theorem isDigit_iff : c.isDigit = true ↔ '0' ≤ c ∧ c ≤ '9' := by
  simp [Char.isDigit, Char.le_def]

theorem digit?_of_isDigit (hc : c.isDigit = true) : digit? 10 c = some (c.toNat - '0'.toNat) := by
  have hrange := isDigit_iff.1 hc
  have hle : c.toNat ≤ 57 := hrange.2
  have hlt : c.toNat - '0'.toNat < 10 := Nat.sub_lt_left_of_lt_add hrange.1 (Nat.lt_succ_of_le hle)
  unfold digit?
  rw [if_pos hrange]
  exact if_pos (decide_eq_true hlt)

theorem isDigit_of_digit? (h : digit? 10 c = some d) : c.isDigit = true := by
  by_contra hc
  -- the other digits stand for ten and more
  have hlarge : ∀ k, ¬ k + 10 < 10 := fun k ↦ by omega
  unfold digit? at h
  rw [if_neg fun hrange ↦ hc (isDigit_iff.2 hrange)] at h
  split at h
  · simp only [Option.filter, decide_eq_true_eq, if_neg (hlarge _), reduceCtorEq] at h
  · split at h
    · simp only [Option.filter, decide_eq_true_eq, if_neg (hlarge _), reduceCtorEq] at h
    · cases h

theorem digits?_ten :
    digits? 10 n cs = some m ↔ (∀ c ∈ cs, c.isDigit) ∧ m = Nat.ofDigitChars 10 cs n := by
  induction cs generalizing n with
  | nil =>
    exact ⟨fun h ↦ ⟨fun _ hc ↦ (nomatch hc), (Option.some.inj h).symm⟩,
      fun h ↦ congrArg some h.2.symm⟩
  | cons c cs ih =>
    rw [digits?, List.forall_mem_cons, Nat.ofDigitChars_cons, Nat.mul_comm 10 n]
    constructor
    · intro h
      obtain ⟨d, hd, hrest⟩ := Option.bind_eq_some_iff.1 h
      have hc := isDigit_of_digit? hd
      obtain rfl : c.toNat - '0'.toNat = d := by simpa [digit?_of_isDigit hc] using hd
      exact ⟨⟨hc, (ih.1 hrest).1⟩, (ih.1 hrest).2⟩
    · rintro ⟨⟨hc, hcs⟩, hm⟩
      rw [digit?_of_isDigit hc, Option.bind_some]
      exact ih.2 ⟨hcs, hm⟩

theorem natural?_ten : natural? 10 cs = some n ↔
    (cs ≠ [] ∧ ∀ c ∈ cs, c.isDigit) ∧ n = Nat.ofDigitChars 10 cs 0 := by
  cases cs with
  | nil => simp [natural?]
  | cons c cs => simp [natural?, digits?_ten]

theorem signed?_ten : signed? (natural? 10) cs = some i ↔ Numeral cs i := by
  constructor
  · intro h
    unfold signed? at h
    split at h
    all_goals
      obtain ⟨n, hn, rfl⟩ := Option.map_eq_some_iff.1 h
      obtain ⟨⟨hne, hdigits⟩, rfl⟩ := natural?_ten.1 hn
    · exact .plus hne hdigits
    · exact .minus hne hdigits
    · exact .plain hne hdigits
  · intro h
    cases h with
    | plain hne hdigits =>
      have hn : natural? 10 cs = some (Nat.ofDigitChars 10 cs 0) :=
        natural?_ten.2 ⟨⟨hne, hdigits⟩, rfl⟩
      obtain ⟨c, cs, rfl⟩ := List.exists_cons_of_ne_nil hne
      have hc : c.isDigit = true := hdigits c List.mem_cons_self
      have hsign : c ≠ '+' ∧ c ≠ '-' := by
        constructor <;> rintro rfl <;> exact absurd hc (by decide)
      simp [signed?, hsign, hn]
    | plus hne hdigits => simp [signed?, natural?_ten.2 ⟨⟨hne, hdigits⟩, rfl⟩]
    | minus hne hdigits => simp [signed?, natural?_ten.2 ⟨⟨hne, hdigits⟩, rfl⟩]

theorem decimal?_eq_some_iff {n : Int32} : decimal? cs = some n ↔ Numeral cs n.toInt := by
  simp only [decimal?, Option.bind_eq_some_iff, toInt32?_eq_some_iff, signed?_ten,
    exists_eq_right]

theorem Numeral.not_isBlank (h : Numeral cs i) : ∀ c ∈ cs, isBlank c = false := by
  have hdigit : ∀ c : Char, c.isDigit → isBlank c = false := by
    intro c hc
    obtain ⟨hmin, hmax⟩ := isDigit_iff.1 hc
    have hnone : ∀ n < 58, 48 ≤ n → blanks.contains n = false := by decide
    exact hnone c.toNat (Nat.lt_succ_of_le hmax) hmin
  cases h with
  | plain hne hdigits => exact fun c hc ↦ hdigit c (hdigits c hc)
  | plus hne hdigits | minus hne hdigits =>
    exact List.forall_mem_cons.2 ⟨by decide, fun c hc ↦ hdigit c (hdigits c hc)⟩

end Digits

section Trim

variable {cs before after : List Char}

theorem trim_append (hbefore : ∀ c ∈ before, isBlank c) (hcs : ∀ c ∈ cs, isBlank c = false)
    (hafter : ∀ c ∈ after, isBlank c) : trim (before ++ cs ++ after) = cs := by
  have hself : ∀ l : List Char, (∀ c ∈ l, isBlank c = false) → l.dropWhile isBlank = l := by
    intro l hl
    cases l with
    | nil => rfl
    | cons c l => exact List.dropWhile_cons_of_neg (by simp [hl c List.mem_cons_self])
  have hfront : (before ++ (cs ++ after)).dropWhile isBlank = (cs ++ after).dropWhile isBlank :=
    List.dropWhile_append_of_pos hbefore
  have hback : (after.reverse ++ cs.reverse).dropWhile isBlank = cs.reverse := by
    rw [List.dropWhile_append_of_pos (by simpa using hafter)]
    exact hself _ (by simpa using hcs)
  rw [trim, List.append_assoc, hfront, List.dropWhile_append, hself cs hcs]
  cases cs with
  | nil => simp [List.dropWhile_eq_nil_iff.2 hafter]
  | cons c cs => simpa using congrArg List.reverse hback

theorem exists_append_trim (cs : List Char) : ∃ before after,
    cs = before ++ trim cs ++ after ∧ (∀ c ∈ before, isBlank c) ∧ ∀ c ∈ after, isBlank c := by
  refine ⟨cs.takeWhile isBlank, (cs.dropWhile isBlank).rtakeWhile isBlank, ?_,
    fun c hc ↦ List.mem_takeWhile_imp hc, fun c hc ↦ List.mem_rtakeWhile_imp hc⟩
  have htrim : trim cs = (cs.dropWhile isBlank).rdropWhile isBlank := rfl
  rw [htrim, List.append_assoc, List.rdropWhile_append_rtakeWhile, List.takeWhile_append_dropWhile]

end Trim

def Spells (b : Bytes) (n : Int32) : Prop :=
  ∃ before number after : List Char,
    b = Bytes.ofText (String.ofList (before ++ number ++ after)) ∧ (∀ c ∈ before, isBlank c) ∧
      (∀ c ∈ after, isBlank c) ∧ Numeral number n.toInt

theorem spells_iff {b : Bytes} {n : Int32} :
    Spells b n ↔ ((Bytes.text? b).bind fun s ↦ decimal? (trim s.toList)) = some n := by
  constructor
  · rintro ⟨before, number, after, rfl, hbefore, hafter, hnumber⟩
    simp only [Bytes.text?_ofText, Option.bind_some, String.toList_ofList,
      trim_append hbefore hnumber.not_isBlank hafter]
    exact decimal?_eq_some_iff.2 hnumber
  · intro h
    obtain ⟨s, hs, hn⟩ := Option.bind_eq_some_iff.1 h
    obtain ⟨before, after, hcs, hbefore, hafter⟩ := exists_append_trim s.toList
    refine ⟨before, trim s.toList, after, ?_, hbefore, hafter, decimal?_eq_some_iff.1 hn⟩
    rw [← hcs, String.ofList_toList]
    exact Bytes.ofText_of_text? hs

end Terminfo.Text
