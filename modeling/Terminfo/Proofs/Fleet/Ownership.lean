import Terminfo.Proofs.Fleet.Names
import Terminfo.Proofs.Session.Owned

set_option autoImplicit false

namespace Terminfo.Fleet

variable {f : Fleet} {b : Switchboard} {s t : Session} {name : String}

def addressesOf (sessions : List (String × Session)) : List Address :=
  sessions.filterMap (·.2.context)

/-- The provider keeps exactly the contexts of the sessions, each for one of them. -/
structure Coherent (f : Fleet) : Prop where
  board : f.board.Coherent
  owned : (addressesOf f.sessions).Perm f.board.provider.addresses

theorem addressesOf_cons (entry : String × Session) (rest : List (String × Session)) :
    addressesOf (entry :: rest) = entry.2.context.toList ++ addressesOf rest := by
  cases hc : entry.2.context <;> simp [addressesOf, hc]

theorem addressesOf_perm {l l' : List (String × Session)} (h : l.Perm l') :
    (addressesOf l).Perm (addressesOf l') := h.filterMap _

theorem addressesOf_lookup (l : List (String × Session)) (name : String) :
    (addressesOf l).Perm
      (((l.lookup name).getD {}).context.toList ++ addressesOf (without name l)) := by
  cases h : l.lookup name with
  | none => simp [without_eq_self h]
  | some s =>
    rw [Option.getD_some, ← addressesOf_cons (name, s)]
    exact addressesOf_perm (perm_of_lookup h)

theorem addressesOf_hidden (l : List (String × Session)) (name : String) :
    (addressesOf l).Perm
      (((hidden? name l).getD {}).context.toList ++ addressesOf (withoutHidden name l)) := by
  cases h : hidden? name l with
  | none => simp [withoutHidden_eq_self h]
  | some s =>
    rw [Option.getD_some, ← addressesOf_cons (name, s)]
    exact addressesOf_perm (perm_of_hidden h)

theorem Coherent.live (hf : f.Coherent) {entry : String × Session} (he : entry ∈ f.sessions) :
    entry.2.Live f.board := by
  intro a ha
  exact hf.owned.subset (List.mem_filterMap.2 ⟨entry, he, ha⟩)

theorem live_empty : ({} : Session).Live b := fun _ ha ↦ (nomatch ha)

theorem Coherent.live_of_lookup (hf : f.Coherent) (h : f.sessions.lookup name = some s) :
    s.Live f.board := by
  have hmem : (name, s) ∈ f.sessions := (perm_of_lookup h).mem_iff.2 List.mem_cons_self
  exact hf.live hmem

theorem Coherent.live_session (hf : f.Coherent) (name : String) :
    (f.session name).Live f.board := by
  cases h : f.sessions.lookup name with
  | none =>
    simp only [session, session?, h, Option.getD_none]
    exact live_empty
  | some s =>
    simp only [session, session?, h, Option.getD_some]
    exact hf.live_of_lookup h

theorem Coherent.establish (hf : f.Coherent) (name : String) (term : Option String)
    (fd : Descriptor) : (f.move (.establish name term fd)).2.Coherent := by
  have hi := Session.init_starts hf.board live_empty f.host term fd
  simp only [move, Session.establish, Guarded.run_bind]
  revert hi
  generalize (({} : Session).init f.host term fd).run f.board = r
  intro hi
  obtain ⟨⟨result, s⟩, board⟩ := r
  obtain ⟨fresh, haddresses, hcontext⟩ := hi.addresses
  simp only [Option.toList_none, List.append_nil] at haddresses hcontext
  cases result with
  | error e =>
    have hs : s = {} := hi.failed rfl
    refine ⟨hi.coherent, ?_⟩
    have hfresh : fresh = [] := by simpa [hs] using hcontext.symm
    simpa [Guarded.run_pure, haddresses, hfresh] using hf.owned
  | ok n =>
    refine ⟨hi.coherent, ?_⟩
    simp only [Guarded.run_pure, addressesOf_cons, haddresses, hcontext]
    exact hf.owned.append_left fresh

theorem Coherent.init (hf : f.Coherent) (name : String) (term : Option String)
    (fd : Descriptor) : (f.move (.init name term fd)).2.Coherent := by
  cases h : f.sessions.lookup name with
  | none => simpa only [move, session?, h] using hf
  | some s =>
    have hi := Session.init_starts hf.board (hf.live_of_lookup h) f.host term fd
    simp only [move, session?, h]
    revert hi
    generalize (s.init f.host term fd).run f.board = r
    intro hi
    obtain ⟨⟨result, t⟩, board⟩ := r
    obtain ⟨fresh, haddresses, hcontext⟩ := hi.addresses
    refine ⟨hi.coherent, ?_⟩
    calc (addressesOf (replace name t f.sessions)).Perm
          (addressesOf ((name, t) :: without name f.sessions)) := addressesOf_perm (replace_perm h)
      _ = fresh ++ addressesOf ((name, s) :: without name f.sessions) := by
          simp only [addressesOf_cons, hcontext, List.append_assoc]
      _ |>.Perm (fresh ++ addressesOf f.sessions) :=
          (addressesOf_perm (perm_of_lookup h).symm).append_left fresh
      _ |>.Perm (fresh ++ f.board.provider.addresses) := hf.owned.append_left fresh
      _ = board.provider.addresses := haddresses.symm

theorem perm_retire (hb : b.Coherent) {rest : List Address}
    (h : (s.context.toList ++ rest).Perm b.provider.addresses) :
    rest.Perm (s.retire.run b).2.provider.addresses := by
  rw [Session.addresses_retire]
  refine .trans ?_ (h.filter _)
  have hnodup : (s.context.toList ++ rest).Nodup := h.nodup_iff.2 hb.orderly.nodup
  have hrest : rest.filter (fun x ↦ s.context ≠ some x) = rest := by
    refine List.filter_eq_self.2 fun x hx ↦ ?_
    have hne : s.context ≠ some x := fun hc ↦
      List.disjoint_of_nodup_append hnodup (by simp [hc]) hx
    simpa using hne
  rw [List.filter_append, hrest]
  cases hc : s.context <;> simp

theorem Coherent.retire (hf : f.Coherent) (name : String) :
    (f.move (.retire name)).2.Coherent := by
  refine ⟨Session.retire_coherent hf.board (hf.live_session name), perm_retire hf.board ?_⟩
  exact (addressesOf_lookup f.sessions name).symm.trans hf.owned

theorem Coherent.live_hidden (hf : f.Coherent) (name : String) :
    ((hidden? name f.sessions).getD {}).Live f.board := by
  cases h : hidden? name f.sessions with
  | none => exact live_empty
  | some s =>
    have hmem : (name, s) ∈ f.sessions := (perm_of_hidden h).mem_iff.2 List.mem_cons_self
    exact hf.live hmem

theorem Coherent.retireHidden (hf : f.Coherent) (name : String) :
    (f.move (.retireHidden name)).2.Coherent := by
  refine ⟨Session.retire_coherent hf.board (hf.live_hidden name), perm_retire hf.board ?_⟩
  exact (addressesOf_hidden f.sessions name).symm.trans hf.owned

/-- Whatever happens during one holding of the switchboard, the marker, the provider and the
sessions agree again at its end. -/
theorem Coherent.move (hf : f.Coherent) (m : Move) : (f.move m).2.Coherent := by
  cases m with
  | create name => exact ⟨hf.board, hf.owned⟩
  | establish name term fd => exact hf.establish name term fd
  | init name term fd => exact hf.init name term fd
  | ask name query =>
    have hq := Session.ask_mirrors hf.board (hf.live_session name) query
    exact ⟨hq.coherent, hq.addresses ▸ hf.owned⟩
  | retire name => exact hf.retire name
  | retireHidden name => exact hf.retireHidden name
  | setEnv name value => exact ⟨hf.board, hf.owned⟩
  | resize fd rows cols => exact ⟨hf.board, hf.owned⟩

theorem coherent_start (host : Host) (allocator : Allocator) : (start host allocator).Coherent :=
  ⟨Switchboard.coherent_start allocator, .refl _⟩

theorem Coherent.moveAll (hf : f.Coherent) (moves : List Move) : (f.moveAll moves).Coherent := by
  induction moves generalizing f with
  | nil => exact hf
  | cons m moves ih => exact ih (hf.move m)

theorem count_addressesOf (a : Address) (sessions : List (String × Session)) :
    (addressesOf sessions).count a = sessions.countP (fun s ↦ s.2.context = some a) := by
  induction sessions with
  | nil => rfl
  | cons entry rest ih =>
    rw [addressesOf_cons, List.count_append, ih, List.countP_cons]
    cases hc : entry.2.context with
    | none => simp
    | some x => by_cases hx : x = a <;> simp [hx, Nat.add_comm]

/-- At any time between two operations the marker tells the current terminal, which is the context
of exactly one session if there is one. No two sessions share a context, the provider keeps a
context exactly as long as a session has it, and no call was ever made on one that is gone. So a
session that takes hold of the switchboard finds its own context current, whether it had to switch
or not. -/
theorem ownership (host : Host) (allocator : Allocator) (moves : List Move) :
    let f := (start host allocator).moveAll moves
    let p := f.board.provider
    f.board.marker = p.current ∧
      (∀ a, f.board.marker = some a → f.sessions.countP (fun s ↦ s.2.context = some a) = 1) ∧
      f.sessions.Pairwise (fun s t ↦ ∀ a, s.2.context = some a → t.2.context ≠ some a) ∧
      (p.addresses.Nodup ∧ (∀ a, a ∈ p.addresses ↔ ∃ s ∈ f.sessions, s.2.context = some a) ∧
        p.misused = false) ∧
      ∀ s ∈ f.sessions, ∀ a, s.2.context = some a →
        (f.board.activate a).provider.current = some a ∧
          (f.board.activate a = f.board ↔ p.current = some a) := by
  intro f p
  have hf : f.Coherent := (coherent_start host allocator).moveAll moves
  have hnodup : (addressesOf f.sessions).Nodup := hf.owned.nodup_iff.2 hf.board.orderly.nodup
  refine ⟨hf.board.marker_eq, ?_, ?_,
    ⟨hf.board.orderly.nodup, ?_, hf.board.orderly.not_misused⟩, ?_⟩
  · intro a ha
    have hmem : a ∈ p.addresses := hf.board.orderly.current_mem (hf.board.marker_eq ▸ ha)
    rw [← count_addressesOf]
    exact List.count_eq_one_of_mem hnodup (hf.owned.mem_iff.2 hmem)
  · refine (List.pairwise_filterMap.1 hnodup).imp ?_
    intro s t h a hs ht
    exact h a hs a ht rfl
  · intro a
    rw [← hf.owned.mem_iff]
    simp [addressesOf]
  · intro s hs a ha
    have hmem : a ∈ p.addresses := hf.live hs a ha
    have hcur := Switchboard.current_activate hf.board hmem
    refine ⟨hcur, ?_, ?_⟩
    · intro h
      rw [h] at hcur
      exact hcur
    · intro h
      rw [Switchboard.activate, if_pos (hf.board.marker_eq.trans h)]

end Terminfo.Fleet
