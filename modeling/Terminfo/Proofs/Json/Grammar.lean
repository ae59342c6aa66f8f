import Terminfo.Proofs.Json.Token
import Terminfo.Proofs.Json.Tree

set_option autoImplicit false

namespace Terminfo.Json

def Blank (cs : List Char) : Prop := ∀ c ∈ cs, c ∈ [' ', '\t', '\n', '\r']

def Digits (cs : List Char) : Prop := cs ≠ [] ∧ ∀ c ∈ cs, c.isDigit = true

instance (cs : List Char) : Decidable (Blank cs) := List.decidableBAll _ cs

instance (cs : List Char) : Decidable (Digits cs) :=
  let _ := List.decidableBAll (fun c ↦ c.isDigit = true) cs
  instDecidableAnd

namespace Number

def sign (negative : Bool) : List Char := if negative then ['-'] else []

/-- How a number may be written. Only what is before the point and the exponent counts. -/
inductive Written : Number → List Char → Prop
  | zero (negative : Bool) : Written ⟨negative, 0, .zero⟩ (sign negative ++ ['0'])
  | whole (negative : Bool) {c : Char} {cs : List Char} : c ≠ '0' → Digits (c :: cs) →
      Written ⟨negative, Nat.ofDigitChars 10 (c :: cs) 0, .whole⟩ (sign negative ++ c :: cs)
  | fraction {n : Number} {cs ds : List Char} : Written n cs → n.part = .zero ∨ n.part = .whole →
      Digits ds → Written { n with part := .fraction } (cs ++ '.' :: ds)
  | exponent {n : Number} {cs : List Char} {e : Char} {mark ds : List Char} : Written n cs →
      n.part ≠ .exponentDigits → e ∈ ['e', 'E'] → mark ∈ [[], ['+'], ['-']] → Digits ds →
      Written { n with part := .exponentDigits } (cs ++ e :: mark ++ ds)

def Begins (n : Number) (cs : List Char) : Prop :=
  ∃ c rest start, cs = c :: rest ∧
    (∀ before, Lexer.open? before c = some (.number start, before)) ∧
    start.feedAll? rest = some n

variable {n m : Number} {cs ds : List Char}

theorem Begins.append (h : n.Begins cs) (hds : n.feedAll? ds = some m) : m.Begins (cs ++ ds) := by
  obtain ⟨c, rest, start, rfl, hopen, hrest⟩ := h
  refine ⟨c, rest ++ ds, start, rfl, hopen, ?_⟩
  simp only [feedAll?] at hrest hds ⊢
  simp [List.foldlM_append, hrest, hds]

theorem Begins.denotes (h : n.Begins cs) (hn : n.isComplete = true) : Denotes cs [.number n] := by
  obtain ⟨c, rest, start, rfl, hopen, hrest⟩ := h
  exact .number hn hopen hrest

theorem exists_digitChar_of_isDigit {c : Char} (hc : c.isDigit = true) :
    ∃ d < 10, c = d.digitChar := by
  have hrange : 48 ≤ c.toNat ∧ c.toNat ≤ 57 := by
    simpa [Char.isDigit, UInt32.le_iff_toNat_le] using hc
  refine ⟨c.toNat - 48, by omega, Char.toNat_inj.1 ?_⟩
  rw [Nat.toNat_digitChar_of_lt_ten (by omega)]
  omega

theorem begins_digit (negative : Bool) {d : Nat} (hd : d < 10) :
    (ofNat negative d).Begins (sign negative ++ [d.digitChar]) := by
  cases negative <;> interval_cases d <;> exact ⟨_, _, _, rfl, fun _ ↦ rfl, rfl⟩

theorem feedAll?_whole (negative : Bool) (w : Nat) (h : ∀ c ∈ cs, c.isDigit = true) :
    feedAll? ⟨negative, w, .whole⟩ cs = some ⟨negative, Nat.ofDigitChars 10 cs w, .whole⟩ := by
  induction cs generalizing w with
  | nil => rfl
  | cons c cs ih =>
    obtain ⟨hc, hcs⟩ := List.forall_mem_cons.1 h
    have hrest := ih (10 * w + (c.toNat - '0'.toNat)) hcs
    simp only [feedAll?] at hrest ⊢
    simpa [feed?, hc, Nat.mul_comm w, Nat.ofDigitChars_cons] using hrest

theorem feedAll?_digits (hfirst : ∀ c, c.isDigit = true → n.feed? c = some m)
    (hstay : ∀ c, c.isDigit = true → m.feed? c = some m) (h : Digits ds) :
    n.feedAll? ds = some m := by
  obtain ⟨hne, hall⟩ := h
  cases ds with
  | nil => exact absurd rfl hne
  | cons d ds =>
    obtain ⟨hd, hds⟩ := List.forall_mem_cons.1 hall
    have hrest : m.feedAll? ds = some m := by
      clear hall hne
      induction ds with
      | nil => rfl
      | cons c ds ih =>
        obtain ⟨hc, hcs⟩ := List.forall_mem_cons.1 hds
        simpa [feedAll?, hstay c hc] using ih hcs
    simpa [feedAll?, hfirst d hd] using hrest

theorem feed?_exponent {e : Char} (hn : n.isComplete = true) (hpart : n.part ≠ .exponentDigits)
    (he : e ∈ ['e', 'E']) : n.feed? e = some { n with part := .exponent } := by
  obtain ⟨negative, w, part⟩ := n
  simp only [List.mem_cons, List.not_mem_nil, or_false] at he
  cases part with
  | zero | whole | fraction => rcases he with rfl | rfl <;> rfl
  | sign | point | exponent | exponentSign => exact absurd hn Bool.false_ne_true
  | exponentDigits => exact absurd rfl hpart

theorem feedAll?_mark {mark : List Char} (hn : n.part = .exponent)
    (hmark : mark ∈ [[], ['+'], ['-']]) :
    ∃ part, (part = .exponent ∨ part = .exponentSign) ∧
      n.feedAll? mark = some { n with part := part } := by
  obtain ⟨negative, w, part⟩ := n
  obtain rfl : part = .exponent := hn
  simp only [List.mem_cons, List.not_mem_nil, or_false] at hmark
  rcases hmark with rfl | rfl | rfl
  · exact ⟨.exponent, .inl rfl, rfl⟩
  · exact ⟨.exponentSign, .inr rfl, rfl⟩
  · exact ⟨.exponentSign, .inr rfl, rfl⟩

theorem Written.begins (h : n.Written cs) : n.isComplete = true ∧ n.Begins cs := by
  induction h with
  | zero negative => exact ⟨rfl, begins_digit negative (by omega : 0 < 10)⟩
  | @whole negative c cs hc h =>
    obtain ⟨hdigit, hcs⟩ := List.forall_mem_cons.1 h.2
    obtain ⟨d, hd, rfl⟩ := exists_digitChar_of_isDigit hdigit
    have hne : d ≠ 0 := fun h ↦ hc (by rw [h]; rfl)
    have hvalue : d.digitChar.toNat - 48 = d := by
      rw [Nat.toNat_digitChar_of_lt_ten hd]
      omega
    have hfirst := begins_digit negative hd
    simp only [ofNat, if_neg hne] at hfirst
    have hall := hfirst.append (feedAll?_whole negative d hcs)
    refine ⟨rfl, ?_⟩
    simpa [Nat.ofDigitChars_cons, hvalue] using hall
  | @fraction n cs ds _ hpart hds ih =>
    have hpoint : n.feed? '.' = some { n with part := .point } := by
      rcases hpart with h | h <;> simp [feed?, feed?.afterWhole, h, Char.isDigit]
    have hdigits : ({ n with part := .point } : Number).feedAll? ds =
        some { n with part := .fraction } :=
      feedAll?_digits (fun c hc ↦ by simp [feed?, hc]) (fun c hc ↦ by simp [feed?, hc]) hds
    refine ⟨rfl, ih.2.append ?_⟩
    simpa [feedAll?, hpoint] using hdigits
  | @exponent n cs e mark ds _ hpart he hmark hds ih =>
    have hexponent : n.feedAll? [e] = some { n with part := .exponent } := by
      rw [feedAll?, List.foldlM_cons, feed?_exponent ih.1 hpart he]
      rfl
    obtain ⟨part, hpart, hmark⟩ := feedAll?_mark (n := { n with part := .exponent }) rfl hmark
    have hdigits : ({ n with part := part } : Number).feedAll? ds =
        some { n with part := .exponentDigits } := by
      refine feedAll?_digits (fun c hc ↦ ?_) (fun c hc ↦ by simp [feed?, hc]) hds
      rcases hpart with rfl | rfl <;> simp [feed?, hc]
    refine ⟨rfl, ?_⟩
    simpa using ((ih.2.append hexponent).append hmark).append hdigits

end Number

inductive Phrase
  | value (t : Tree)
  | items (ts : List Tree)
  | member (name : Literal) (t : Tree)
  | members (ms : List (Literal × Tree))

namespace Phrase

def tokens : Phrase → List Token
  | value t => t.tokens
  | items ts => Tree.itemTokens ts
  | member name t => .text name :: .colon :: t.tokens
  | members ms => Tree.memberTokens ms

inductive Written : Phrase → List Char → Prop
  | null : Written (value .null) ['n', 'u', 'l', 'l']
  | truth (b : Bool) : Written (value (.truth b)) (toString b).toList
  | number {n : Number} {cs : List Char} : n.Written cs → Written (value (.number n)) cs
  | text {l : Literal} {cs : List Char} : l.Written cs →
      Written (value (.text l)) ('"' :: cs ++ ['"'])
  | list {ts : List Tree} {cs : List Char} : Written (items ts) cs →
      Written (value (.list ts)) ('[' :: cs ++ [']'])
  | object {ms : List (Literal × Tree)} {cs : List Char} : Written (members ms) cs →
      Written (value (.object ms)) ('\x7b' :: cs ++ ['\x7d'])
  | spaced {t : Tree} {before cs after : List Char} : Blank before → Written (value t) cs →
      Blank after → Written (value t) (before ++ cs ++ after)
  | noItems {cs : List Char} : Blank cs → Written (items []) cs
  | lastItem {t : Tree} {cs : List Char} : Written (value t) cs → Written (items [t]) cs
  | item {t : Tree} {ts : List Tree} {cs cs' : List Char} : ts ≠ [] → Written (value t) cs →
      Written (items ts) cs' → Written (items (t :: ts)) (cs ++ ',' :: cs')
  | named {name : Literal} {t : Tree} {before key between cs : List Char} : Blank before →
      name.Written key → Blank between → Written (value t) cs →
      Written (member name t) (before ++ '"' :: key ++ '"' :: between ++ ':' :: cs)
  | noMembers {cs : List Char} : Blank cs → Written (members []) cs
  | lastMember {name : Literal} {t : Tree} {cs : List Char} : Written (member name t) cs →
      Written (members [(name, t)]) cs
  | another {name : Literal} {t : Tree} {ms : List (Literal × Tree)} {cs cs' : List Char} :
      ms ≠ [] → Written (member name t) cs → Written (members ms) cs' →
      Written (members ((name, t) :: ms)) (cs ++ ',' :: cs')

end Phrase

namespace Blank

open Lexer

variable {cs blank : List Char} {tokens : List Token}

theorem isSpace {c : Char} (hc : c ∈ [' ', '\t', '\n', '\r']) : Lexer.isSpace c = true := by
  simp only [List.mem_cons, List.not_mem_nil, or_false] at hc
  rcases hc with rfl | rfl | rfl | rfl <;> rfl

theorem stops (h : Blank blank) : Stops blank := by
  cases blank with
  | nil => exact stops_nil
  | cons c cs => exact stops_cons (.inl (isSpace (h c List.mem_cons_self)))

theorem append (h : Blank blank) (hcs : Denotes cs tokens) : Denotes (blank ++ cs) tokens := by
  -- `Denotes.append` would ask that a number can stop at `cs`, but none is open here
  intro before rest hrest
  rw [← hcs before rest hrest]
  clear hcs
  induction blank with
  | nil => rfl
  | cons c blank ih =>
    obtain ⟨hc, hblank⟩ := List.forall_mem_cons.1 h
    have hfeed : ground.feed? before c = some (.ground, before) := by
      simp [feed?, open?, isSpace hc]
    simpa [hfeed] using ih hblank

theorem denotes (h : Blank blank) : Denotes blank [] := by simpa using h.append .nil

end Blank

namespace Phrase

theorem Written.denotes {p : Phrase} {cs : List Char} (h : p.Written cs) : Denotes cs p.tokens := by
  -- what follows a value is white space or a mark, at which a number stops
  induction h with
  | null => exact .null
  | truth b => cases b <;> exact fun _ _ _ ↦ rfl
  | number h => exact h.begins.2.denotes h.begins.1
  | text h => exact .text h
  | @list ts cs _ ih =>
    have hclose : Denotes [']'] [.closeList] := .mark ']' rfl .nil
    have hall := (ih.append hclose (Lexer.stops_cons (.inr rfl))).mark '[' rfl
    simpa [tokens, Tree.tokens] using hall
  | @object ms cs _ ih =>
    have hclose : Denotes ['\x7d'] [.closeObject] := .mark '\x7d' rfl .nil
    have hall := (ih.append hclose (Lexer.stops_cons (.inr rfl))).mark '\x7b' rfl
    simpa [tokens, Tree.tokens] using hall
  | spaced hbefore _ hafter ih =>
    have hall := (hbefore.append ih).append hafter.denotes hafter.stops
    simpa using hall
  | noItems h => exact h.denotes
  | lastItem _ ih => simpa [tokens, Tree.itemTokens] using ih
  | @item t ts cs cs' hne _ _ iht ihts =>
    have hall := iht.append (ihts.mark ',' rfl) (Lexer.stops_cons (.inr rfl))
    simpa [tokens, Tree.itemTokens.eq_3 _ _ hne] using hall
  | named hbefore hname hbetween _ ih =>
    have hvalue := hbetween.append (ih.mark ':' rfl)
    have hall := hbefore.append ((Denotes.text hname).append hvalue
      (hbetween.stops.append (Lexer.stops_cons (.inr rfl))))
    simpa [tokens] using hall
  | noMembers h => exact h.denotes
  | lastMember _ ih => simpa [tokens, Tree.memberTokens] using ih
  | @another name t ms cs cs' hne _ _ ihm ihms =>
    have hall := ihm.append (ihms.mark ',' rfl) (Lexer.stops_cons (.inr rfl))
    simpa [tokens, Tree.memberTokens.eq_3 _ _ _ hne] using hall

theorem Written.parse?_eq {t : Tree} {cs : List Char} (h : (value t).Written cs) :
    Tree.parse? cs = some t :=
  Tree.parse?_of_tokens h.denotes.tokens?_eq

end Phrase

end Terminfo.Json
