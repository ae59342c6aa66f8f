import Terminfo.Provider
import Mathlib.Data.List.Nodup

set_option autoImplicit false

namespace Terminfo

namespace Provider

variable {p : Provider} {a b : Address} {c : Context} {h : Host} {name : Option Bytes}
  {fd : Descriptor}

def held? (p : Provider) (a : Address) : Option Context := p.contexts.lookup a

/-- Each context has an address of its own, the current terminal exists, and no call has named a
context that does not. -/
structure Orderly (p : Provider) : Prop where
  nodup : p.addresses.Nodup
  current_mem : ∀ {a}, p.current = some a → a ∈ p.addresses
  not_misused : p.misused = false

theorem held?_isSome_iff : (p.held? a).isSome ↔ a ∈ p.addresses := by
  simp only [held?, addresses]
  induction p.contexts with
  | nil => simp
  | cons entry rest ih =>
    obtain ⟨k, c⟩ := entry
    by_cases hk : a = k
    · simp [hk]
    · simp [List.lookup_cons, hk, beq_eq_false_iff_ne.2 hk, ih]

theorem exists_held? (ha : a ∈ p.addresses) : ∃ c, p.held? a = some c :=
  Option.isSome_iff_exists.1 (held?_isSome_iff.2 ha)

theorem mem_addresses_of_held? (hc : p.held? a = some c) : a ∈ p.addresses :=
  held?_isSome_iff.1 (by simp [hc])

theorem misuse_false : p.misuse false = p := by
  cases p
  simp [misuse]

theorem select_none : p.select none = { p with current := none } := by
  simp [select, misuse_false]

theorem select_some (ha : a ∈ p.addresses) : p.select (some a) = { p with current := some a } := by
  simp [select, misuse_false, ha]

theorem delete_eq (ha : a ∈ p.addresses) :
    p.delete a = { p with
      contexts := p.contexts.filter (·.1 ≠ a)
      current := if p.current = some a then none else p.current } := by
  simp [delete, misuse_false, ha]

theorem addresses_delete : (p.delete a).addresses = p.addresses.filter (· ≠ a) := by
  simp only [addresses, delete, misuse, List.filter_map]
  rfl

theorem held?_delete_of_ne (hb : b ≠ a) : (p.delete a).held? b = p.held? b := by
  simp only [held?, delete, misuse]
  induction p.contexts with
  | nil => rfl
  | cons entry rest ih =>
    obtain ⟨k, c⟩ := entry
    by_cases hk : k = a
    · have hne : (b == k) = false := beq_eq_false_iff_ne.2 (hk ▸ hb)
      rw [List.filter_cons_of_neg (by simp [hk]), ih, List.lookup_cons, hne]
    · rw [List.filter_cons_of_pos (by simp [hk]), List.lookup_cons, List.lookup_cons, ih]

theorem place_notMem (p : Provider) (c : Context) : (p.place c).1 ∉ p.addresses :=
  p.allocator.choose_notMem _ _

theorem contexts_place : (p.place c).2.contexts = ((p.place c).1, c) :: p.contexts := rfl

theorem addresses_update : (p.update a c).addresses = p.addresses := by
  simp only [addresses, update, List.map_map]
  refine List.map_congr_left fun entry _ ↦ ?_
  by_cases hk : entry.1 = a <;> simp [hk]

theorem held?_update_of_ne (hb : b ≠ a) : (p.update a c).held? b = p.held? b := by
  simp only [held?, update]
  induction p.contexts with
  | nil => rfl
  | cons entry rest ih =>
    obtain ⟨k, d⟩ := entry
    rw [List.map_cons, List.lookup_cons, ih]
    by_cases hk : k = a
    · have hne : (b == k) = false := beq_eq_false_iff_ne.2 (hk ▸ hb)
      simp [hk, List.lookup_cons, hk ▸ hne]
    · simp [hk, List.lookup_cons]

theorem held?_update_self (ha : a ∈ p.addresses) : (p.update a c).held? a = some c := by
  simp only [held?, update, addresses] at ha ⊢
  generalize p.contexts = entries at ha
  induction entries with
  | nil => simp at ha
  | cons entry rest ih =>
    obtain ⟨k, d⟩ := entry
    by_cases hk : k = a
    · simp [hk]
    · have hrest : a ∈ rest.map (·.1) := by simpa [Ne.symm hk] using ha
      have hne : (a == k) = false := beq_eq_false_iff_ne.2 (Ne.symm hk)
      simpa [hk, List.lookup_cons, hne] using ih hrest

theorem context?_eq (hc : p.current = some a) : p.context? = p.held? a := by
  simp [context?, hc, held?]

namespace Orderly

theorem deselect (hp : p.Orderly) : (p.select none).Orderly := by
  rw [select_none]
  exact ⟨hp.nodup, fun {x} hc ↦ (nomatch hc), hp.not_misused⟩

theorem select (hp : p.Orderly) (ha : a ∈ p.addresses) : (p.select (some a)).Orderly := by
  rw [select_some ha]
  refine ⟨hp.nodup, fun {x} hc ↦ ?_, hp.not_misused⟩
  obtain rfl := Option.some.inj hc
  exact ha

theorem delete (hp : p.Orderly) (ha : a ∈ p.addresses) : (p.delete a).Orderly := by
  refine ⟨?_, fun {x} hc ↦ ?_, ?_⟩
  · rw [addresses_delete]
    exact hp.nodup.filter _
  · rw [delete_eq ha] at hc
    rw [addresses_delete]
    by_cases hcur : p.current = some a
    · simp [hcur] at hc
    · rw [if_neg hcur] at hc
      have hne : x ≠ a := fun he ↦ hcur (he ▸ hc)
      simpa [hne] using hp.current_mem hc
  · rw [delete_eq ha]
    exact hp.not_misused

theorem place (hp : p.Orderly) (c : Context) : (p.place c).2.Orderly where
  nodup := List.nodup_cons.2 ⟨place_notMem p c, hp.nodup⟩
  current_mem hc := List.mem_cons_of_mem _ (hp.current_mem hc)
  not_misused := hp.not_misused

theorem update (hp : p.Orderly) (a : Address) (c : Context) : (p.update a c).Orderly := by
  refine ⟨?_, fun {x} hc ↦ ?_, hp.not_misused⟩
  · rw [addresses_update]
    exact hp.nodup
  · rw [addresses_update]
    exact hp.current_mem hc

end Orderly

def loaded (h : Host) (name : Option Bytes) (fd : Descriptor) : Except SetupFault Context :=
  match requested h name with
  | .error fault => .error fault
  | .ok name =>
    match find? h name with
    | none => .error (absence h name)
    | some entry =>
      if entry.flag "gn" then
        if entry.canAddress then .error .hardcopy else .error .notFound
      else if entry.flag "hc" then .error .hardcopy
      else .ok (Context.load h name fd entry)

structure Installs (p : Provider) (a : Address) (c : Context) (q : Provider) : Prop where
  orderly : q.Orderly
  notMem : a ∉ p.addresses
  contexts : q.contexts = (a, c) :: p.contexts
  current : q.current = some a

theorem Orderly.installs (hp : p.Orderly) (c : Context) :
    p.Installs (p.place c).1 c ((p.place c).2.select (some (p.place c).1)) := by
  have hmem : (p.place c).1 ∈ (p.place c).2.addresses := by simp [addresses, contexts_place]
  refine ⟨(hp.place c).select hmem, place_notMem p c, rfl, ?_⟩
  rw [select_some hmem]

theorem Installs.mem {q : Provider} (hq : p.Installs a c q) : a ∈ q.addresses :=
  hq.orderly.current_mem hq.current

theorem Installs.contexts_delete {q : Provider} (hq : p.Installs a c q) :
    (q.delete a).contexts = p.contexts := by
  have hrest : p.contexts.filter (·.1 ≠ a) = p.contexts := by
    refine List.filter_eq_self.2 fun entry he ↦ ?_
    have hne : entry.1 ≠ a := fun hk ↦ hq.notMem (hk ▸ List.mem_map_of_mem he)
    simpa using hne
  simpa [Provider.delete, misuse, hq.contexts] using hrest

/-- How a setup can end for a provider without a current terminal, by what it was to load. -/
inductive Outcome (p : Provider) :
    Except SetupFault Context → Except SetupFault Unit × Provider → Prop
  | refused {fault : SetupFault} {q : Provider} : q.Orderly → q.current = none →
      q.contexts = p.contexts → Outcome p (.error fault) (.error fault, q)
  | leftover {fault : SetupFault} {a : Address} {c : Context} {q : Provider} :
      p.Installs a c q → Outcome p (.error fault) (.error fault, q)
  | installed {a : Address} {c : Context} {q : Provider} :
      p.Installs a c q → Outcome p (.ok c) (.ok (), q)

theorem setup_outcome (hp : p.Orderly) (hc : p.current = none) (h : Host) (name : Option Bytes)
    (fd : Descriptor) : p.Outcome (loaded h name fd) (p.setup h name fd) := by
  unfold loaded setup
  cases requested h name with
  | error fault => exact .refused hp hc rfl
  | ok n =>
    have hreuses : p.reuses h n fd = false := by simp [reuses, context?, hc]
    simp only [hreuses, Bool.false_eq_true, if_false]
    cases find? h n with
    | none => exact .refused hp hc rfl
    | some entry =>
      have hi := hp.installs (Context.load h n fd entry)
      by_cases hgn : entry.flag "gn"
      · by_cases haddr : entry.canAddress
        · simp only [hgn, haddr, if_true]
          exact .leftover hi
        · simp only [hgn, haddr, if_true, Bool.false_eq_true, if_false]
          refine .refused (hi.orderly.delete hi.mem) ?_ hi.contexts_delete
          rw [delete_eq hi.mem, hi.current]
          exact if_pos rfl
      · by_cases hhc : entry.flag "hc"
        · simp only [hgn, hhc, if_true, Bool.false_eq_true, if_false]
          exact .leftover hi
        · simp only [hgn, hhc, Bool.false_eq_true, if_false]
          exact .installed hi

end Provider

end Terminfo
