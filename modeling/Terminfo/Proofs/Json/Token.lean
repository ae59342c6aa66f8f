import Terminfo.Json.Token
import Mathlib.Tactic.IntervalCases

set_option autoImplicit false

namespace Terminfo.Json

namespace Piece

inductive Written : Piece → List Char → Prop
  | raw {c : Char} : c ≠ '"' → c ≠ '\\' → 0x20 ≤ c.toNat → Written (.plain c) [c]
  | short {mark c : Char} : Lexer.escaped? mark = some c → Written (.plain c) ['\\', mark]
  | unit {a b c d : Char} {n : Nat} : Text.digits? 16 0 [a, b, c, d] = some n →
      Written (.unit n) ['\\', 'u', a, b, c, d]

end Piece

namespace Literal

inductive Written : Literal → List Char → Prop
  | nil : Written [] []
  | cons {p : Piece} {l : Literal} {cs cs' : List Char} :
      p.Written cs → Written l cs' → Written (p :: l) (cs ++ cs')

end Literal

namespace Number

def feedAll? (n : Number) (cs : List Char) : Option Number := cs.foldlM feed? n

def unread (negative : Bool) : Number := ⟨negative, 0, .sign⟩

def ofNat (negative : Bool) (n : Nat) : Number := ⟨negative, n, if n = 0 then .zero else .whole⟩

theorem isComplete_ofNat (negative : Bool) (n : Nat) : (ofNat negative n).isComplete = true := by
  by_cases hn : n = 0 <;> simp [ofNat, isComplete, hn]

theorem feed?_digitChar {n : Number} {d : Nat} (hpart : n.part = .sign ∨ n.part = .whole)
    (hd : d < 10) (hn : n.part = .sign → n.whole = 0)
    (hw : n.part = .whole → 0 < n.whole) :
    n.feed? d.digitChar = some (ofNat n.negative (n.whole * 10 + d)) := by
  obtain ⟨negative, whole, part⟩ := n
  rcases hpart with rfl | rfl
  · obtain rfl : whole = 0 := hn rfl
    interval_cases d <;> rfl
  · have hpos : 0 < whole := hw rfl
    have hne : whole * 10 + d ≠ 0 := by omega
    simp only [ofNat, if_neg hne]
    interval_cases d <;> rfl

theorem exists_digitChar {n : Nat} {c : Char} (hc : c ∈ Nat.toDigits 10 n) :
    ∃ d < 10, c = d.digitChar := by
  induction n using Nat.strong_induction_on with
  | _ n ih =>
    by_cases hn : n < 10
    · rw [Nat.toDigits_of_lt_base hn, List.mem_singleton] at hc
      exact ⟨n, hn, hc⟩
    · rw [Nat.toDigits_of_base_le (by omega) (by omega), List.mem_append, List.mem_singleton] at hc
      rcases hc with hfront | hlast
      · exact ih (n / 10) (by omega) hfront
      · exact ⟨n % 10, Nat.mod_lt _ (by omega), hlast⟩

theorem feedAll?_toDigits (negative : Bool) (n : Nat) :
    (unread negative).feedAll? (Nat.toDigits 10 n) = some (ofNat negative n) := by
  induction n using Nat.strong_induction_on with
  | _ n ih =>
    by_cases hn : n < 10
    · rw [Nat.toDigits_of_lt_base hn]
      have h : (unread negative).feed? n.digitChar = some (ofNat negative (0 * 10 + n)) :=
        feed?_digitChar (.inl rfl) hn (fun _ ↦ rfl) (fun h ↦ nomatch h)
      simpa [feedAll?] using h
    · have hquot : n / 10 ≠ 0 := by omega
      have h : (ofNat negative (n / 10)).feed? (n % 10).digitChar =
          some (ofNat negative (n / 10 * 10 + n % 10)) :=
        feed?_digitChar (by simp [ofNat, hquot]) (Nat.mod_lt _ (by omega))
          (by simp [ofNat, hquot]) (fun _ ↦ Nat.pos_of_ne_zero hquot)
      rw [Nat.toDigits_of_base_le (by omega) (by omega)]
      have hfront := ih (n / 10) (by omega)
      simp only [feedAll?] at hfront ⊢
      rw [List.foldlM_append, hfront]
      simpa [Nat.div_add_mod' n 10] using h

end Number

namespace Lexer

variable {before : List Token} {cs rest : List Char}

@[simp]
theorem run?_cons (lexer : Lexer) (tokens : List Token) (c : Char) (cs : List Char) :
    lexer.run? tokens (c :: cs) = (lexer.feed? tokens c).bind fun p ↦ p.1.run? p.2 cs := by
  rw [run?]
  cases lexer.feed? tokens c <;> rfl

/-- A digit opens a number as it would go on with one after a minus sign. -/
theorem open?_digitChar {d : Nat} (hd : d < 10) :
    open? before d.digitChar =
      ((Number.unread false).feed? d.digitChar).map fun n ↦ (.number n, before) := by
  interval_cases d <;> rfl

theorem run?_written {p : Piece} (h : p.Written cs) (pieces : Literal) :
    (text pieces).run? before (cs ++ rest) = (text (p :: pieces)).run? before rest := by
  cases h with
  | @raw c hquote hslash hprint =>
    have hfeed : (text pieces).feed? before c = some (.text (.plain c :: pieces), before) := by
      simp [feed?, hprint]
    simp [hfeed]
  | @short mark c hescaped =>
    have hne : mark ≠ 'u' := fun h ↦ by simp [h, escaped?] at hescaped
    simp [feed?, hne, hescaped]
  | @unit a b c d n hdigits =>
    simp only [Text.digits?, Option.bind_eq_some_iff, Option.some.injEq] at hdigits
    obtain ⟨va, ha, vb, hb, vc, hc, vd, hd, rfl⟩ := hdigits
    simp [feed?, ha, hb, hc, hd]

theorem run?_literal {l : Literal} (h : l.Written cs) (pieces : Literal) :
    (text pieces).run? before (cs ++ rest) = (text (l.reverse ++ pieces)).run? before rest := by
  induction h generalizing pieces with
  | nil => rfl
  | cons hp _ ih => rw [List.append_assoc, run?_written hp, ih]; simp

theorem run?_feedAll {n m : Number} (h : n.feedAll? cs = some m) :
    (number n).run? before (cs ++ rest) = (number m).run? before rest := by
  induction cs generalizing n with
  | nil =>
    obtain rfl : n = m := by simpa [Number.feedAll?] using h
    rfl
  | cons c cs ih =>
    simp only [Number.feedAll?, List.foldlM_cons, Option.bind_eq_bind,
      Option.bind_eq_some_iff] at h
    obtain ⟨k, hk, hrest⟩ := h
    simp [feed?, hk, ih hrest]

/-- No number goes on with the characters. -/
def Stops (cs : List Char) : Prop :=
  ∀ c ∈ cs.head?, isSpace c = true ∨ (punctuation? c).isSome = true

theorem stops_nil : Stops [] := fun _ h ↦ nomatch h

theorem stops_cons {c : Char} (h : isSpace c = true ∨ (punctuation? c).isSome = true) :
    Stops (c :: cs) := by
  intro d hd
  obtain rfl : c = d := by simpa using hd
  exact h

theorem Stops.append (h : Stops cs) (hrest : Stops rest) : Stops (cs ++ rest) := by
  cases cs with
  | nil => exact hrest
  | cons c cs => exact stops_cons (h c (by simp))

theorem punctuation_cases {c : Char} (h : (punctuation? c).isSome = true) :
    c ∈ ['[', ']', '\x7b', '\x7d', ',', ':'] := by
  revert h
  fun_cases punctuation? c <;> simp

theorem feed?_number_stop {n : Number} {c : Char}
    (h : isSpace c = true ∨ (punctuation? c).isSome = true) : n.feed? c = none := by
  have hc : c ∈ [' ', '\n', '\t', '\r', '[', ']', '\x7b', '\x7d', ',', ':'] := by
    rcases h with h | h
    · simp only [isSpace, Bool.or_eq_true, decide_eq_true_eq] at h
      grind
    · have := punctuation_cases h
      grind
  obtain ⟨negative, whole, part⟩ := n
  simp only [List.mem_cons, List.not_mem_nil, or_false] at hc
  rcases hc with rfl | rfl | rfl | rfl | rfl | rfl | rfl | rfl | rfl | rfl <;> cases part <;> rfl

theorem run?_number_end {n : Number} (hn : n.isComplete = true) (h : Stops rest) :
    (number n).run? before rest = ground.run? (.number n :: before) rest := by
  cases rest with
  | nil => simp [run?, finish?, hn]
  | cons c cs =>
    have hstop : n.feed? c = none := feed?_number_stop (h c (by simp))
    simp [feed?, hstop, hn]

end Lexer

/-- Between two tokens the characters are read as the given tokens. -/
def Denotes (cs : List Char) (tokens : List Token) : Prop :=
  ∀ before rest, Lexer.Stops rest →
    Lexer.ground.run? before (cs ++ rest) = Lexer.ground.run? (tokens.reverse ++ before) rest

namespace Denotes

open Lexer

variable {cs cs' : List Char} {tokens tokens' : List Token}

theorem nil : Denotes [] [] := fun _ _ _ ↦ rfl

theorem append (h : Denotes cs tokens) (h' : Denotes cs' tokens') (hs : Stops cs') :
    Denotes (cs ++ cs') (tokens ++ tokens') := by
  intro before rest hrest
  rw [List.append_assoc, h _ _ (hs.append hrest), h' _ _ hrest]
  simp

theorem mark (c : Char) {token : Token} (hc : punctuation? c = some token)
    (h : Denotes cs tokens) : Denotes (c :: cs) (token :: tokens) := by
  intro before rest hrest
  have hspace : isSpace c = false := by
    have hmem := punctuation_cases (c := c) (by simp [hc])
    simp only [List.mem_cons, List.not_mem_nil, or_false] at hmem
    rcases hmem with rfl | rfl | rfl | rfl | rfl | rfl <;> rfl
  have hfeed : ground.feed? before c = some (.ground, token :: before) := by
    simp [feed?, open?, hspace, hc]
  simp [hfeed, h _ _ hrest]

theorem text {l : Literal} (h : l.Written cs) : Denotes ('"' :: cs ++ ['"']) [.text l] := by
  intro before rest _
  have hopen : ground.feed? before '"' = some (.text [], before) := rfl
  have hclose : (Lexer.text l.reverse).feed? before '"' = some (.ground, .text l :: before) := by
    simp [feed?]
  rw [List.cons_append, List.cons_append, List.append_assoc, run?_cons, hopen, Option.bind_some,
    run?_literal h]
  simp [hclose]

theorem number {n : Number} (hn : n.isComplete = true) {c : Char} {start : Number}
    (hstart : ∀ before, open? before c = some (.number start, before))
    (h : start.feedAll? cs = some n) : Denotes (c :: cs) [.number n] := by
  intro before rest hrest
  simp [feed?, hstart, run?_feedAll h, run?_number_end hn hrest]

theorem negative (n : Nat) : Denotes ('-' :: Nat.toDigits 10 n) [.number (.ofNat true n)] :=
  number (Number.isComplete_ofNat true n) (fun _ ↦ rfl) (Number.feedAll?_toDigits true n)

theorem natural (n : Nat) : Denotes (Nat.toDigits 10 n) [.number (.ofNat false n)] := by
  have hall := Number.feedAll?_toDigits false n
  cases hn : Nat.toDigits 10 n with
  | nil => exact absurd hn Nat.toDigits_ne_nil
  | cons c cs =>
    obtain ⟨d, hd, rfl⟩ := Number.exists_digitChar (hn ▸ List.mem_cons_self : c ∈ Nat.toDigits 10 n)
    rw [hn] at hall
    simp only [Number.feedAll?, List.foldlM_cons, Option.bind_eq_bind,
      Option.bind_eq_some_iff] at hall
    obtain ⟨start, hstart, hrest⟩ := hall
    refine number (Number.isComplete_ofNat false n) (fun before ↦ ?_) hrest
    rw [open?_digitChar hd, hstart, Option.map_some]

theorem null : Denotes ['n', 'u', 'l', 'l'] [.null] := fun _ _ _ ↦ rfl

theorem truth (b : Bool) :
    Denotes (if b then ['t', 'r', 'u', 'e'] else ['f', 'a', 'l', 's', 'e']) [.truth b] := by
  cases b <;> exact fun _ _ _ ↦ rfl

theorem tokens?_eq (h : Denotes cs tokens) : tokens? cs = some tokens := by
  have hrun := h [] [] stops_nil
  simpa [tokens?, run?, finish?] using hrun

end Denotes

end Terminfo.Json
