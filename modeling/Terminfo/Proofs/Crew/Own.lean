import Terminfo.Proofs.Crew.Errand
import Terminfo.Proofs.Fleet.Refinement

set_option autoImplicit false

namespace Terminfo

abbrev View := List (String × OwnedSession)

def View.move (h : Host) (w : View) (m : Move) : Answer × View :=
  let (answer, world) := ({ host := h, sessions := w } : OwnedFleet).move m
  (answer, world.sessions)

namespace Own

open Fleet

variable {ω α : Type} {own own' own'' : Own} {w w' w'' : View} {b b' b'' : Switchboard} {s : Session}
  {name : String}

/-- On this switchboard the sessions of a thread have contexts of their own, with what the thread sees
in them. -/
structure At (own : Own) (w : View) (b : Switchboard) : Prop where
  coherent : b.Coherent
  nodup : (addressesOf own).Nodup
  subset : addressesOf own ⊆ b.provider.addresses
  view : mapValues (·.owned b) own = w

/-- A thread has come to other sessions of its own. It has taken over no context that was in use, and
no context but its own has changed. -/
structure Leads (b : Switchboard) (own : Own) (b' : Switchboard) (own' : Own) (w' : View) : Prop where
  at' : At own' w' b'
  fresh : ∀ a ∈ addressesOf own', a ∈ addressesOf own ∨ a ∉ b.provider.addresses
  others : ∀ a ∈ b.provider.addresses, a ∉ addressesOf own →
    a ∈ b'.provider.addresses ∧ b'.provider.held? a = b.provider.held? a

theorem At.leads (h : At own w b) : Leads b own b own w :=
  ⟨h, fun _ ha ↦ .inl ha, fun _ ha _ ↦ ⟨ha, rfl⟩⟩

theorem Leads.trans (h : Leads b own b' own' w') (h' : Leads b' own' b'' own'' w'') :
    Leads b own b'' own'' w'' := by
  have hnew : ∀ a ∈ b.provider.addresses, a ∉ addressesOf own → a ∉ addressesOf own' := by
    intro a ha hown hown'
    rcases h.fresh a hown' with hold | hnot
    · exact hown hold
    · exact hnot ha
  refine ⟨h'.at', fun a ha ↦ ?_, fun a ha hown ↦ ?_⟩
  · rcases h'.fresh a ha with hown' | hnot
    · exact h.fresh a hown'
    · by_cases hown : a ∈ addressesOf own
      · exact .inl hown
      · exact .inr fun hb ↦ hnot (h.others a hb hown).1
  · obtain ⟨hb', hheld⟩ := h.others a ha hown
    obtain ⟨hb'', hheld'⟩ := h'.others a hb' (hnew a ha hown)
    exact ⟨hb'', hheld'.trans hheld⟩

theorem At.owned_of_unchanged (h : At own w b)
    (hheld : ∀ a ∈ addressesOf own, b'.provider.held? a = b.provider.held? a) :
    mapValues (·.owned b') own = w := by
  rw [← h.view]
  refine mapValues_congr fun entry he ↦ Session.owned_congr fun {a} ha ↦ hheld a ?_
  exact List.mem_filterMap.2 ⟨entry, he, ha⟩

theorem At.live (h : At own w b) {entry : String × Session} (he : entry ∈ own) :
    entry.2.Live b := fun _ ha ↦ h.subset (List.mem_filterMap.2 ⟨entry, he, ha⟩)

theorem At.lookup (h : At own w b) (name : String) :
    w.lookup name = (own.lookup name).map (·.owned b) := by
  rw [← h.view]
  exact lookup_mapValues (l := own) (g := fun s : Session ↦ s.owned b)

/-- The result `r` of a call is the result `o` that it has where nothing is shared. -/
structure Reaches (b : Switchboard) (own : Own) (r : (α × Own) × Switchboard) (o : α × View) :
    Prop where
  answer : r.1.1 = o.1
  leads : Leads b own r.2 r.1.2 o.2

theorem Leads.of_starts (h : At own w b) {r : (Except Error Int32 × Session) × Switchboard}
    {o : Except Error Int32 × OwnedSession} (hs : s.Starts b r o)
    (hperm : ∀ fresh, r.1.2.context.toList = fresh ++ s.context.toList →
      (addressesOf own').Perm (fresh ++ addressesOf own))
    (hview : mapValues (·.owned r.2) own' = w') : Leads b own r.2 own' w' := by
  obtain ⟨fresh, haddresses, hcontext⟩ := hs.addresses
  have hown := hperm fresh hcontext
  have hnodup : (fresh ++ b.provider.addresses).Nodup := haddresses ▸ hs.coherent.orderly.nodup
  have hdisjoint := List.disjoint_of_nodup_append hnodup
  refine ⟨⟨hs.coherent, ?_, fun a ha ↦ ?_, hview⟩, fun a ha ↦ ?_, fun a ha _ ↦ ⟨?_, hs.others ha⟩⟩
  · rw [hown.nodup_iff]
    exact (List.Nodup.of_append_left hnodup).append h.nodup fun a hfresh hold ↦
      hdisjoint hfresh (h.subset hold)
  · rw [haddresses]
    rcases List.mem_append.1 (hown.mem_iff.1 ha) with hfresh | hold
    · exact List.mem_append_left _ hfresh
    · exact List.mem_append_right _ (h.subset hold)
  · rcases List.mem_append.1 (hown.mem_iff.1 ha) with hfresh | hold
    · exact .inr (hdisjoint hfresh)
    · exact .inl hold
  · rw [haddresses]
    exact List.mem_append_right _ ha

theorem At.leads_create (h : At own w b) (name : String) :
    Leads b own b ((name, {}) :: own) ((name, {}) :: w) :=
  ⟨⟨h.coherent, h.nodup, h.subset, by rw [← h.view]; rfl⟩, fun _ ha ↦ .inl ha,
    fun _ ha _ ↦ ⟨ha, rfl⟩⟩

theorem At.establish (h : At own w b) (host : Host) (name : String) (term : Option String)
    (fd : Descriptor) :
    Reaches b own (((Errand.establish name term fd : Errand ω).program host own).run b)
      (w.move host (.establish name term fd)) := by
  have hi := Session.init_starts h.coherent live_empty host term fd
  have hempty : ({} : Session).owned b = {} := rfl
  simp only [Errand.program, Session.establish, Guarded.run_bind, View.move, OwnedFleet.move]
  rw [hempty] at hi
  generalize (({} : Session).init host term fd).run b = r at hi ⊢
  generalize ({} : OwnedSession).init host term fd = o at hi ⊢
  obtain ⟨⟨result, t⟩, board⟩ := r
  obtain ⟨result', o⟩ := o
  have howned : mapValues (·.owned board) own = w :=
    h.owned_of_unchanged fun a ha ↦ hi.others (h.subset ha)
  obtain rfl : result = result' := hi.answer
  obtain rfl : t.owned board = o := hi.owned
  cases result with
  | error e =>
    have ht : t = {} := hi.failed rfl
    refine ⟨rfl, Leads.of_starts h hi (fun fresh hfresh ↦ ?_) howned⟩
    have hnil : fresh = [] := by simpa [ht] using hfresh.symm
    simp [hnil, Guarded.run_pure]
  | ok n =>
    refine ⟨rfl, Leads.of_starts h hi (fun fresh hfresh ↦ ?_) ?_⟩
    · simp only [Option.toList_none, List.append_nil] at hfresh
      simp only [Guarded.run_pure, addressesOf_cons, hfresh, List.Perm.refl]
    · rw [← howned]
      rfl

theorem At.init (h : At own w b) (host : Host) (name : String) (term : Option String)
    (fd : Descriptor) :
    Reaches b own (((Errand.init name term fd : Errand ω).program host own).run b)
      (w.move host (.init name term fd)) := by
  cases hs : own.lookup name with
  | none =>
    simp only [Errand.program, hs, View.move, OwnedFleet.move, h.lookup, Option.map_none]
    exact ⟨rfl, h.leads⟩
  | some s =>
    have hperm := perm_of_lookup hs
    have hlive : s.Live b := h.live (hperm.mem_iff.2 List.mem_cons_self : (name, s) ∈ own)
    have hi := Session.init_starts h.coherent hlive host term fd
    simp only [Errand.program, hs, Guarded.run_bind, View.move, OwnedFleet.move, h.lookup,
      Option.map_some]
    generalize (s.init host term fd).run b = r at hi ⊢
    generalize (s.owned b).init host term fd = o at hi ⊢
    obtain ⟨⟨result, t⟩, board⟩ := r
    obtain ⟨result', o⟩ := o
    obtain rfl : result = result' := hi.answer
    obtain rfl : t.owned board = o := hi.owned
    refine ⟨rfl, Leads.of_starts h hi (fun fresh hfresh ↦ ?_) ?_⟩
    · calc (addressesOf (replace name t own)).Perm (addressesOf ((name, t) :: without name own)) :=
          addressesOf_perm (replace_perm hs)
        _ = fresh ++ addressesOf ((name, s) :: without name own) := by
          rw [addressesOf_cons, addressesOf_cons, hfresh, List.append_assoc]
        _ |>.Perm (fresh ++ addressesOf own) :=
          (addressesOf_perm hperm.symm).append_left fresh
    · rw [← h.view]
      refine mapValues_replace fun entry he ↦ Session.owned_congr fun {a} ha ↦ hi.others ?_
      exact h.live (hperm.mem_iff.2 (List.mem_cons_of_mem _ he)) a ha

theorem At.session_view (h : At own w b) (host : Host) (name : String) :
    ({ host, sessions := w } : OwnedFleet).session name = (own.session name).owned b := by
  rw [OwnedFleet.session, h.lookup, session]
  cases own.lookup name <;> rfl

theorem addressesOf_session (own : Own) (name : String) :
    (addressesOf own).Perm
      ((own.session name).context.toList ++ addressesOf (without name own)) :=
  addressesOf_lookup own name

theorem mem_addressesOf_session {a : Address} (ha : (own.session name).context = some a) :
    a ∈ addressesOf own :=
  (addressesOf_session own name).mem_iff.2 (List.mem_append_left _ (by simp [ha]))

theorem At.live_session (h : At own w b) (name : String) : (own.session name).Live b :=
  fun _ ha ↦ h.subset (mem_addressesOf_session ha)

theorem At.ne_of_without (h : At own w b) {entry : String × Session} (he : entry ∈ without name own)
    {a : Address} (ha : entry.2.context = some a) : (own.session name).context ≠ some a := by
  intro hs
  have hnodup := (addressesOf_session own name).nodup_iff.1 h.nodup
  exact List.disjoint_of_nodup_append hnodup (by simp [hs]) (List.mem_filterMap.2 ⟨entry, he, ha⟩)

theorem Leads.of_mirrors (h : At own w b) {r : α × Switchboard} {o : α × OwnedSession}
    (hm : s.Mirrors b r o) (hview : mapValues (·.owned r.2) own = w')
    (hs : ∀ a, s.context = some a → a ∉ addressesOf own →
      r.2.provider.held? a = b.provider.held? a) : Leads b own r.2 own w' := by
  refine ⟨⟨hm.coherent, h.nodup, ?_, hview⟩, fun a ha ↦ .inl ha, fun a ha hown ↦ ⟨?_, ?_⟩⟩
  · rw [hm.addresses]
    exact h.subset
  · rw [hm.addresses]
    exact ha
  · by_cases hc : s.context = some a
    · exact hs a hc hown
    · exact hm.others hc

theorem At.view_of_mirrors (h : At own w b) {r : α × Switchboard} {o : α × OwnedSession}
    (hm : (own.session name).Mirrors b r o) :
    mapValues (·.owned r.2) own = replace name o.2 w := by
  rw [← hm.owned, ← h.view]
  cases hs : own.lookup name with
  | none =>
    -- the name stands for a session without a context, so that nothing has changed
    have hempty : own.session name = {} := by simp [session, hs]
    rw [replace_eq_self (by rw [lookup_mapValues, hs, Option.map_none])]
    exact mapValues_congr fun entry he ↦ Session.owned_congr fun {a} _ ↦
      hm.others (by simp [hempty])
  | some s =>
    have hself : replace name (own.session name) own = own := by
      rw [session, hs, Option.getD_some, replace_lookup hs]
    have hothers : ∀ entry ∈ without name own, entry.2.owned r.2 = entry.2.owned b :=
      fun entry he ↦ Session.owned_congr fun {a} ha ↦ hm.others (h.ne_of_without he ha)
    have hmap : mapValues (·.owned r.2) (replace name (own.session name) own) =
        replace name ((own.session name).owned r.2) (mapValues (·.owned b) own) :=
      mapValues_replace hothers
    rwa [hself] at hmap

theorem At.askOwn (h : At own w b) (host : Host) (name : String) (query : Query) :
    Reaches b own (((Errand.askOwn name query : Errand ω).program host own).run b)
      (w.move host (.ask name query)) := by
  have hq := Session.ask_mirrors h.coherent (h.live_session name) query
  have hleads := Leads.of_mirrors h hq (h.view_of_mirrors hq) fun a ha hown ↦
    absurd (mem_addressesOf_session ha) hown
  simp only [Errand.program, Guarded.run_bind, Guarded.run_pure, View.move, OwnedFleet.move,
    h.session_view]
  exact ⟨hq.answer, hleads⟩

theorem At.leads_retire (h : At own w b)
    (hperm : (addressesOf own).Perm (s.context.toList ++ addressesOf own')) :
    Leads b own (s.retire.run b).2 own' (mapValues (·.owned b) own') := by
  have hmine : ∀ a, s.context = some a → a ∈ addressesOf own := fun a ha ↦
    hperm.mem_iff.2 (List.mem_append_left _ (by simp [ha]))
  have hne : ∀ a ∈ addressesOf own', s.context ≠ some a := fun a ha hs ↦
    List.disjoint_of_nodup_append (hperm.nodup_iff.1 h.nodup) (by simp [hs]) ha
  have hmem : ∀ a ∈ b.provider.addresses, s.context ≠ some a →
      a ∈ (s.retire.run b).2.provider.addresses := by
    intro a ha hcontext
    rw [Session.addresses_retire]
    exact List.mem_filter.2 ⟨ha, by simpa using hcontext⟩
  refine ⟨⟨Session.retire_coherent h.coherent fun a ha ↦ h.subset (hmine a ha), ?_, fun a ha ↦ ?_,
    ?_⟩, fun a ha ↦ .inl (hperm.mem_iff.2 (List.mem_append_right _ ha)), fun a ha hown ↦ ?_⟩
  · exact List.Nodup.of_append_right (hperm.nodup_iff.1 h.nodup)
  · exact hmem a (h.subset (hperm.mem_iff.2 (List.mem_append_right _ ha))) (hne a ha)
  · refine mapValues_congr fun entry he ↦ Session.owned_congr fun {a} ha ↦
      Session.held?_retire (hne a ?_)
    exact List.mem_filterMap.2 ⟨entry, he, ha⟩
  · have hcontext : s.context ≠ some a := fun hs ↦ hown (hmine a hs)
    exact ⟨hmem a ha hcontext, Session.held?_retire hcontext⟩

theorem At.retire (h : At own w b) (host : Host) (name : String) :
    Reaches b own (((Errand.retire name : Errand ω).program host own).run b)
      (w.move host (.retire name)) := by
  have hleads := h.leads_retire (addressesOf_session own name)
  rw [← without_mapValues, h.view] at hleads
  simp only [Errand.program, Guarded.run_bind, Guarded.run_pure, View.move, OwnedFleet.move]
  exact ⟨rfl, hleads⟩

theorem At.leads_move {f : Fleet} (h : At f.sessions w f.board) (m : Move) :
    Leads f.board f.sessions (f.move m).2.board (f.move m).2.sessions (w.move f.host m).2 := by
  cases m with
  | create name => exact h.leads_create name
  | establish name term fd =>
    have hleads := (h.establish (ω := Unit) f.host name term fd).leads
    simp only [Errand.program, Guarded.run_bind] at hleads
    simp only [move]
    generalize (Session.establish f.host term fd).run f.board = r at hleads ⊢
    obtain ⟨result, board⟩ := r
    cases result <;> exact hleads
  | init name term fd =>
    have hleads := (h.init (ω := Unit) f.host name term fd).leads
    simp only [Errand.program] at hleads
    simp only [move, session?]
    cases hs : f.sessions.lookup name with
    | none => simpa only [hs, Guarded.run_pure] using hleads
    | some s => simpa only [hs, Guarded.run_bind, Guarded.run_pure] using hleads
  | ask name query =>
    have hleads := (h.askOwn (ω := Unit) f.host name query).leads
    simp only [Errand.program, Guarded.run_bind, Guarded.run_pure] at hleads
    exact hleads
  | retire name =>
    have hleads := (h.retire (ω := Unit) f.host name).leads
    simp only [Errand.program, Guarded.run_bind, Guarded.run_pure] at hleads
    exact hleads
  | retireHidden name =>
    have hleads := h.leads_retire (addressesOf_hidden f.sessions name)
    rwa [← withoutHidden_mapValues, h.view] at hleads
  | setEnv name value => exact h.leads
  | resize fd rows cols => exact h.leads

end Own

end Terminfo
