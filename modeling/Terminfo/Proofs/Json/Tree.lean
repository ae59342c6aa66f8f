import Terminfo.Json.Tree

set_option autoImplicit false

namespace Terminfo.Json

namespace Tree

mutual

def tokens : Tree → List Token
  | .null => [.null]
  | .truth b => [.truth b]
  | .number n => [.number n]
  | .text l => [.text l]
  | .list items => .openList :: itemTokens items ++ [.closeList]
  | .object members => .openObject :: memberTokens members ++ [.closeObject]

def itemTokens : List Tree → List Token
  | [] => []
  | [t] => tokens t
  | t :: items => tokens t ++ .comma :: itemTokens items

def memberTokens : List (Literal × Tree) → List Token
  | [] => []
  | [(key, t)] => .text key :: .colon :: tokens t
  | (key, t) :: members => .text key :: .colon :: tokens t ++ .comma :: memberTokens members

end

end Tree

namespace Reader

variable (frames : List Frame) (rest : List Token)

@[simp]
theorem run?_cons (r : Reader) (token : Token) (tokens : List Token) :
    r.run? (token :: tokens) = (r.feed? token).bind (·.run? tokens) := by
  rw [run?]
  cases r.feed? token <;> rfl

def Reads (t : Tree) : Prop :=
  ∀ frames rest, (value frames).run? (t.tokens ++ rest) = (complete t frames).run? rest

theorem run?_itemTokens {items : List Tree} (hne : items ≠ []) (h : ∀ t ∈ items, Reads t)
    (done : List Tree) :
    (value (.list done :: frames)).run? (Tree.itemTokens items ++ .closeList :: rest) =
      (complete (.list (done.reverse ++ items)) frames).run? rest := by
  induction items generalizing done with
  | nil => exact absurd rfl hne
  | cons t items ih =>
    obtain ⟨ht, hitems⟩ := List.forall_mem_cons.1 h
    cases items with
    | nil =>
      rw [Tree.itemTokens, ht]
      simp [feed?]
    | cons u items =>
      have hrest := ih (List.cons_ne_nil u items) hitems (t :: done)
      rw [Tree.itemTokens.eq_3 _ _ (by simp), List.append_assoc, ht]
      simpa [feed?] using hrest

theorem run?_memberTokens {members : List (Literal × Tree)} (hne : members ≠ [])
    (h : ∀ m ∈ members, Reads m.2) (done : List (Literal × Tree)) :
    (key done frames).run? (Tree.memberTokens members ++ .closeObject :: rest) =
      (complete (.object (done.reverse ++ members)) frames).run? rest := by
  induction members generalizing done with
  | nil => exact absurd rfl hne
  | cons m members ih =>
    obtain ⟨name, t⟩ := m
    obtain ⟨ht, hmembers⟩ := List.forall_mem_cons.1 h
    have hvalue := ht (.object done name :: frames)
    cases members with
    | nil => simp [Tree.memberTokens, feed?, hvalue]
    | cons m members =>
      have hrest := ih (List.cons_ne_nil m members) hmembers ((name, t) :: done)
      simpa [Tree.memberTokens, feed?, hvalue] using hrest

/-- In a list that has just been opened an item is read like any later one. -/
theorem run?_firstItem (t : Tree) :
    (itemOrEnd frames).run? (t.tokens ++ rest) =
      (value (.list [] :: frames)).run? (t.tokens ++ rest) := by
  cases t <;> simp [Tree.tokens, feed?]

theorem reads_list {items : List Tree} (h : ∀ t ∈ items, Reads t) : Reads (.list items) := by
  intro frames rest
  have hopen : (value frames).run? ((Tree.list items).tokens ++ rest) =
      (itemOrEnd frames).run? (Tree.itemTokens items ++ .closeList :: rest) := by
    simp [Tree.tokens, feed?, value?]
  cases items with
  | nil => simp [hopen, Tree.itemTokens, feed?]
  | cons t items =>
    obtain ⟨more, hmore⟩ : ∃ more, Tree.itemTokens (t :: items) = t.tokens ++ more := by
      cases items with
      | nil => exact ⟨[], by simp [Tree.itemTokens]⟩
      | cons u items => exact ⟨_, Tree.itemTokens.eq_3 _ _ (by simp)⟩
    have hitems := run?_itemTokens frames rest (List.cons_ne_nil t items) h []
    rw [hmore, List.append_assoc, ← run?_firstItem, ← List.append_assoc, ← hmore] at hitems
    exact hopen.trans hitems

theorem reads_object {members : List (Literal × Tree)} (h : ∀ m ∈ members, Reads m.2) :
    Reads (.object members) := by
  intro frames rest
  cases members with
  | nil => simp [Tree.tokens, Tree.memberTokens, feed?, value?]
  | cons m members =>
    have hmembers := run?_memberTokens frames rest (List.cons_ne_nil m members) h []
    -- where an object has just been opened, its first key is read like any later one
    cases members <;> simpa [Tree.tokens, Tree.memberTokens, feed?, value?] using hmembers

theorem reads : (t : Tree) → Reads t
  | .null | .truth _ | .number _ | .text _ => fun _ _ ↦ by simp [Tree.tokens, feed?, value?]
  | .list items => reads_list fun t _ ↦ reads t
  | .object members => reads_object fun m h ↦ reads m.2
decreasing_by
  · have := List.sizeOf_lt_of_mem ‹t ∈ items›
    simp only [Tree.list.sizeOf_spec]
    omega
  · have := List.sizeOf_lt_of_mem h
    obtain ⟨name, t⟩ := m
    simp only [Prod.mk.sizeOf_spec, Tree.object.sizeOf_spec] at *
    omega

end Reader

namespace Tree

theorem parse?_of_tokens {cs : List Char} {t : Tree} (h : tokens? cs = some t.tokens) :
    parse? cs = some t := by
  have hrun := Reader.reads t [] []
  simpa [parse?, h, Reader.run?, Reader.finish?] using hrun

end Tree

end Terminfo.Json
