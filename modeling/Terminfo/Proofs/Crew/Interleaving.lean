import Terminfo.Proofs.Crew.Serving

set_option autoImplicit false

namespace Terminfo

open Fleet Guarded Own

variable {ω α : Type} {shared : List Session} {origin b b' : Switchboard} {own own' : Own}
  {w w' : View}

def Own.Beside (shared : List Session) (own : Own) : Prop :=
  ∀ s ∈ shared, ∀ a, s.context = some a → a ∉ addressesOf own

theorem Own.Beside.leads (h : Beside shared own) (hb : Stands shared origin b)
    (hleads : Leads b own b' own' w') : Beside shared own' := by
  intro s hs a ha hown'
  rcases hleads.fresh a hown' with hown | hnot
  · exact h s hs a ha hown
  · exact hnot ((hb s hs).1 a ha)

theorem Guarded.Stands.leads (hb : Stands shared origin b) (h : Beside shared own)
    (hleads : Leads b own b' own' w') : Stands shared origin b' := by
  intro s hs
  obtain ⟨hlive, howned⟩ := hb s hs
  have hothers : ∀ {a}, s.context = some a →
      a ∈ b'.provider.addresses ∧ b'.provider.held? a = b.provider.held? a :=
    fun {a} ha ↦ hleads.others a (hlive a ha) (h s hs a ha)
  exact ⟨fun a ha ↦ (hothers ha).1, (Session.owned_congr fun ha ↦ (hothers ha).2).trans howned⟩

theorem Guarded.Serves.run {Q : Own → View → α → Prop} {p : Guarded α} {n : Nat}
    (h : Serves shared origin Q p own w n) (hb : Stands shared origin b) (hat : At own w b)
    (hbeside : Beside shared own) : ∃ own' w', Q own' w' (p.run b).1 := by
  induction p generalizing own w b n with
  | done a =>
    obtain ⟨own', w', -, hQ⟩ := h b hb hat
    exact ⟨own', w', hQ⟩
  | hold effect next ih =>
    obtain ⟨m, own', w', -, hleads, hnext⟩ := h b hb hat
    exact ih b hnext (hb.leads hbeside hleads) hleads.at' (hbeside.leads hb hleads)

theorem Own.At.leads_other (hat : At own w b) {mine : Own} (hapart : (addressesOf mine).Disjoint
    (addressesOf own)) (hleads : Leads b mine b' own' w') : At own w b' := by
  have hothers : ∀ a ∈ addressesOf own,
      a ∈ b'.provider.addresses ∧ b'.provider.held? a = b.provider.held? a :=
    fun a ha ↦ hleads.others a (hat.subset ha) fun hmine ↦ hapart hmine ha
  exact ⟨hleads.at'.coherent, hat.nodup, fun a ha ↦ (hothers a ha).1,
    hat.owned_of_unchanged fun a ha ↦ (hothers a ha).2⟩

theorem Own.Leads.disjoint (hleads : Leads b own b' own' w') {other : Own} {w'' : View}
    (hat : At other w'' b) (hapart : (addressesOf own).Disjoint (addressesOf other)) :
    (addressesOf own').Disjoint (addressesOf other) := by
  intro a ha hother
  rcases hleads.fresh a ha with hown | hnot
  · exact hapart hown hother
  · exact hnot (hat.subset hother)

namespace Crew

/-- Each thread has its own sessions and is bound for its goal, within `n` of its holdings. -/
structure Goes (shared : List Session) (origin : Switchboard) (goal : Nat → α) (crew : Crew α)
    (own : Nat → Own) (w : Nat → View) (n : Nat → Nat) : Prop where
  stands : Stands shared origin crew.board
  at' : ∀ i, At (own i) (w i) crew.board
  serves : ∀ i p, crew.threads[i]? = some p →
    Serves shared origin (fun _ _ a ↦ a = goal i) p (own i) (w i) (n i)
  apart : ∀ i j, i ≠ j → (addressesOf (own i)).Disjoint (addressesOf (own j))
  beside : ∀ i, Beside shared (own i)

variable {goal : Nat → α} {crew : Crew α} {own : Nat → Own} {w : Nat → View} {n : Nat → Nat}

theorem Goes.hold (h : Goes shared origin goal crew own w n) {i : Nat}
    {effect : Switchboard → Switchboard} {next : Switchboard → Guarded α}
    (hi : crew.threads[i]? = some (.hold effect next)) :
    ∃ own' w', Goes shared origin goal
      { board := effect crew.board, threads := crew.threads.set i (next crew.board) }
      own' w' (fun j ↦ if j = i then n i - 1 else n j) := by
  obtain ⟨m, mine, view, hm, hleads, hnext⟩ := h.serves i _ hi crew.board h.stands (h.at' i)
  refine ⟨fun j ↦ if j = i then mine else own j, fun j ↦ if j = i then view else w j,
    h.stands.leads (h.beside i) hleads, fun j ↦ ?_, fun j p hp ↦ ?_, fun j k hjk ↦ ?_, fun j ↦ ?_⟩
  · by_cases hj : j = i
    · simpa only [hj, if_true] using hleads.at'
    · simpa only [if_neg hj] using (h.at' j).leads_other (h.apart i j (Ne.symm hj)) hleads
  · by_cases hj : j = i
    · subst hj
      have hlt : j < crew.threads.length := (List.getElem?_eq_some_iff.1 hi).1
      obtain rfl : next crew.board = p := by simpa [List.getElem?_set_self hlt] using hp
      simpa [hm] using hnext
    · have hold : crew.threads[j]? = some p := by
        rwa [List.getElem?_set_ne (Ne.symm hj)] at hp
      simpa only [if_neg hj] using h.serves j p hold
  · -- a new context of the thread was in no use, and so it is not one of another thread
    by_cases hj : j = i
    · have hk : k ≠ i := fun hk ↦ hjk (hj.trans hk.symm)
      simp only [if_pos hj, if_neg hk]
      exact hleads.disjoint (h.at' k) (h.apart i k (Ne.symm hk))
    · by_cases hk : k = i
      · simp only [if_neg hj, if_pos hk]
        exact (hleads.disjoint (h.at' j) (h.apart i j (Ne.symm hj))).symm
      · simpa only [if_neg hj, if_neg hk] using h.apart j k hjk
  · by_cases hj : j = i
    · simpa only [hj, if_true] using (h.beside i).leads h.stands hleads
    · simpa only [if_neg hj] using h.beside j

theorem Goes.mono (h : Goes shared origin goal crew own w n) {m : Nat → Nat}
    (hserves : ∀ i p, crew.threads[i]? = some p → n i ≤ m i ∨ ∃ a, p = .done a) :
    Goes shared origin goal crew own w m := by
  refine ⟨h.stands, h.at', fun i p hp ↦ ?_, h.apart, h.beside⟩
  rcases hserves i p hp with hle | ⟨a, rfl⟩
  · exact (h.serves i p hp).mono hle
  · exact h.serves i (.done a) hp

theorem Goes.step (h : Goes shared origin goal crew own w n) (i : Nat) :
    ∃ own' w', Goes shared origin goal (crew.step i) own' w'
      (fun j ↦ if j = i then n i - 1 else n j) := by
  cases hi : crew.threads[i]? with
  | none =>
    simp only [Crew.step, hi]
    refine ⟨own, w, h.mono fun j p hp ↦ .inl ?_⟩
    have hj : j ≠ i := fun hj ↦ by simp [← hj, hp] at hi
    simp [hj]
  | some p =>
    cases p with
    | done a =>
      simp only [Crew.step, hi]
      refine ⟨own, w, h.mono fun j p hp ↦ ?_⟩
      by_cases hj : j = i
      · subst hj
        exact .inr ⟨a, Option.some.inj (hp.symm.trans hi)⟩
      · exact .inl (by simp [hj])
    | hold effect next =>
      simp only [Crew.step, hi]
      exact h.hold hi

theorem Goes.runAll (h : Goes shared origin goal crew own w n) (schedule : List Nat) :
    ∃ own' w', Goes shared origin goal (crew.runAll schedule) own' w'
      (fun j ↦ n j - schedule.count j) := by
  induction schedule generalizing crew own w n with
  | nil => exact ⟨own, w, h⟩
  | cons i schedule ih =>
    obtain ⟨own', w', hstep⟩ := h.step i
    obtain ⟨own'', w'', hrest⟩ := ih hstep
    refine ⟨own'', w'', hrest.mono fun j p _ ↦ .inl ?_⟩
    by_cases hj : j = i
    · subst hj
      simp only [if_true, List.count_cons_self]
      omega
    · simp [hj, List.count_cons_of_ne (Ne.symm hj)]

theorem length_step (crew : Crew α) (i : Nat) : (crew.step i).threads.length = crew.threads.length := by
  unfold step
  split <;> simp

theorem length_runAll (crew : Crew α) (schedule : List Nat) :
    (crew.runAll schedule).threads.length = crew.threads.length := by
  induction schedule generalizing crew with
  | nil => rfl
  | cons i schedule ih => exact (ih (crew.step i)).trans (length_step crew i)

theorem Goes.eq_goal (h : Goes shared origin goal crew own w n) {i : Nat} {a : α}
    (hi : crew.threads[i]? = some (.done a)) : a = goal i := by
  obtain ⟨own', w', -, ha⟩ := h.serves i _ hi crew.board h.stands (h.at' i)
  exact ha

theorem Goes.eq_goal_alone (h : Goes shared origin goal crew own w n) {i : Nat} {p : Guarded α}
    (hi : crew.threads[i]? = some p) : (p.run crew.board).1 = goal i := by
  obtain ⟨own', w', ha⟩ := (h.serves i p hi).run h.stands (h.at' i) (h.beside i)
  exact ha

theorem Goes.done_of_zero (h : Goes shared origin goal crew own w n) {i : Nat}
    (hi : i < crew.threads.length) (hn : n i = 0) : crew.threads[i]? = some (.done (goal i)) := by
  have hp := List.getElem?_eq_getElem hi
  cases hthread : crew.threads[i] with
  | done a =>
    rw [hthread] at hp
    rw [hp, h.eq_goal hp]
  | hold effect next =>
    rw [hthread] at hp
    obtain ⟨m, own', w', hm, -⟩ := h.serves i _ hp crew.board h.stands (h.at' i)
    omega

variable {f : Fleet} {members : List (Member ω)}

def member (members : List (Member ω)) (i : Nat) : Member ω := members[i]?.getD ⟨[], []⟩

theorem addressesOf_member {i : Nat} {a : Address} (ha : a ∈ addressesOf (member members i).own) :
    ∃ m, members[i]? = some m ∧ a ∈ addressesOf m.own := by
  unfold member at ha
  cases hm : members[i]? with
  | none => simp [hm, addressesOf] at ha
  | some m => exact ⟨m, rfl, by simpa [hm] using ha⟩

/-- A fleet whose sessions are either shared or the own ones of one thread. -/
structure Shares (f : Fleet) (shared : Own) (members : List (Member ω)) : Prop where
  coherent : f.Coherent
  split : (shared ++ members.flatMap (·.own)).Perm f.sessions

variable {shared : Own}

theorem Shares.perm (h : Shares f shared members) :
    (addressesOf shared ++ members.flatMap (addressesOf ·.own)).Perm f.board.provider.addresses := by
  have hperm := (addressesOf_perm h.split).trans h.coherent.owned
  simpa [addressesOf, List.filterMap_flatMap] using hperm

theorem Shares.nodup (h : Shares f shared members) :
    (addressesOf shared ++ members.flatMap (addressesOf ·.own)).Nodup :=
  h.perm.nodup_iff.2 h.coherent.board.orderly.nodup

theorem Shares.at' (h : Shares f shared members) (i : Nat) :
    At (member members i).own (mapValues (·.owned f.board) (member members i).own) f.board := by
  refine ⟨h.coherent.board, ?_, fun a ha ↦ ?_, rfl⟩
  · have hnodup := (List.nodup_flatMap.1 (List.Nodup.of_append_right h.nodup)).1
    unfold member
    cases hm : members[i]? with
    | none => exact List.nodup_nil
    | some m => exact hnodup m (List.mem_of_getElem? hm)
  · obtain ⟨m, hm, ha⟩ := addressesOf_member ha
    have hmem : a ∈ members.flatMap (addressesOf ·.own) :=
      List.mem_flatMap.2 ⟨m, List.mem_of_getElem? hm, ha⟩
    exact h.perm.mem_iff.1 (List.mem_append_right _ hmem)

theorem Shares.apart (h : Shares f shared members) {i j : Nat} (hij : i ≠ j) :
    (addressesOf (member members i).own).Disjoint (addressesOf (member members j).own) := by
  have hpairwise := (List.nodup_flatMap.1 (List.Nodup.of_append_right h.nodup)).2
  intro a hi hj
  obtain ⟨m, hm, hi⟩ := addressesOf_member hi
  obtain ⟨k, hk, hj⟩ := addressesOf_member hj
  obtain ⟨hlt, rfl⟩ := List.getElem?_eq_some_iff.1 hm
  obtain ⟨hlt', rfl⟩ := List.getElem?_eq_some_iff.1 hk
  rcases Nat.lt_or_gt_of_ne hij with hless | hless
  · exact List.pairwise_iff_getElem.1 hpairwise i j hlt hlt' hless hi hj
  · exact List.pairwise_iff_getElem.1 hpairwise j i hlt' hlt hless hj hi

theorem Shares.goes (h : Shares f shared members)
    (hpermitted : ∀ m ∈ members, ∀ e ∈ m.errands, e.Permitted f.board (shared.map (·.2))) :
    Goes (shared.map (·.2)) f.board
      (fun i ↦ Errand.outcomes f.host f.board
        (mapValues (·.owned f.board) (member members i).own) (member members i).errands)
      (start f members) (fun i ↦ (member members i).own)
      (fun i ↦ mapValues (·.owned f.board) (member members i).own)
      (fun i ↦ 3 * (member members i).errands.length) := by
  refine ⟨fun s hs ↦ ?_, h.at', fun i p hp ↦ ?_, fun i j ↦ h.apart, fun i s hs a ha hown ↦ ?_⟩
  · obtain ⟨entry, hentry, rfl⟩ := List.mem_map.1 hs
    exact ⟨h.coherent.live (h.split.mem_iff.1 (List.mem_append_left _ hentry)), rfl⟩
  · obtain ⟨m, hm, rfl⟩ := Option.map_eq_some_iff.1 ((List.getElem?_map ..).symm.trans hp)
    have hmember : member members i = m := by simp [member, hm]
    rw [hmember]
    exact Errand.serves_all f.host m.errands (hpermitted m (List.mem_of_getElem? hm)) _ _
  · obtain ⟨entry, hentry, rfl⟩ := List.mem_map.1 hs
    obtain ⟨m, hm, hmem⟩ := addressesOf_member hown
    exact List.disjoint_of_nodup_append h.nodup (List.mem_filterMap.2 ⟨entry, hentry, ha⟩)
      (List.mem_flatMap.2 ⟨m, List.mem_of_getElem? hm, hmem⟩)

/-- Threads that share sessions never notice each other, as long as nothing that they expand for a
shared session stores into an upper-case variable. In whichever order the threads take hold of the
switchboard, also between the holdings of one control string, and whatever sessions they open and
give up for themselves, each thread that comes to its end has the results that it has alone, and it
comes there within three turns for each of its calls. -/
theorem threads_never_meet (host : Host) (allocator : Allocator) (moves : List Move) (shared : Own)
    (members : List (Member ω)) (schedule : List Nat) :
    let f := (Fleet.start host allocator).moveAll moves
    let crew := (start f members).runAll schedule
    (shared ++ members.flatMap (·.own)).Perm f.sessions →
      (∀ m ∈ members, ∀ e ∈ m.errands, e.Permitted f.board (shared.map (·.2))) →
      ∀ i m, members[i]? = some m →
        let alone := ((m.program f.host).run f.board).1
        (∀ answers, crew.threads[i]? = some (.done answers) → answers = alone) ∧
          (3 * m.errands.length ≤ schedule.count i → crew.threads[i]? = some (.done alone)) := by
  intro f crew hsplit hpermitted i m hm alone
  have hf : f.Coherent := (coherent_start host allocator).moveAll moves
  have hshares : Shares f shared members := ⟨hf, hsplit⟩
  have hstart := hshares.goes hpermitted
  obtain ⟨own, w, hgoes⟩ := hstart.runAll schedule
  have hmember : member members i = m := by simp [member, hm]
  have hthread : (start f members).threads[i]? = some (m.program f.host) := by simp [start, hm]
  have halone : alone = _ := hstart.eq_goal_alone hthread
  refine ⟨fun answers hi ↦ (hgoes.eq_goal hi).trans halone.symm, fun hcount ↦ ?_⟩
  have hlt : i < crew.threads.length := by
    rw [length_runAll]
    exact (List.getElem?_eq_some_iff.1 hthread).1
  rw [halone]
  refine hgoes.done_of_zero hlt ?_
  simp only [hmember]
  omega

theorem threads_never_meet_beside_worker :
    let entry : Entry := { strings := [("cup", .value [80, 37, 112, 49, 37, 100])] }
    let host : Host := { entries := [("x", some entry)] }
    let f := (Fleet.start host .ascending).moveAll [.create "v", .establish "s" (some "x") 1]
    let s : Session := { context := some 1 }
    let t : Terminal Unit := { session := s, out := (), config := {}, term := "x" }
    let reader : Member Unit :=
      { own := [], errands := [.controlString t "cup" [7], .ask s (.string "cup")] }
    let worker : Member Unit :=
      { own := [("v", {})]
        errands := [.init "v" (some "x") 1, .retire "v", .establish "w" (some "x") 1] }
    let schedule := [0, 1, 0, 1, 0, 1, 0, 0, 0]
    ([("s", s)] ++ [reader, worker].flatMap (·.own)).Perm f.sessions ∧
      ((start f [reader, worker]).runAll schedule).threads[0]? =
        some (.done [.ok (.bytes [80, 55]), .ok (.bytes [80, 37, 112, 49, 37, 100])]) := by
  intro entry host f s t reader worker schedule
  have hsessions : f.sessions = [("s", s), ("v", {})] := by decide +kernel
  have hsplit : ([("s", s)] ++ [reader, worker].flatMap (·.own)).Perm f.sessions :=
    hsessions ▸ .refl _
  have hspares : (s.owned f.board).Spares [80, 37, 112, 49, 37, 100] [7] :=
    .of_directives (by decide +kernel)
  have hstring : ((s.owned f.board).getString "cup").1 = .ok [80, 37, 112, 49, 37, 100] := by
    decide +kernel
  have hpermitted : ∀ m ∈ [reader, worker], ∀ e ∈ m.errands, e.Permitted f.board [s] := by
    simp [reader, worker, Errand.Permitted, t, hstring, hspares]
  have halone : ((reader.program f.host).run f.board).1 =
      [.ok (.bytes [80, 55]), .ok (.bytes [80, 37, 112, 49, 37, 100])] := by decide +kernel
  have hthread := (threads_never_meet host .ascending _ [("s", s)] [reader, worker] schedule hsplit
    hpermitted 0 reader rfl).2 (by decide)
  rw [halone] at hthread
  exact ⟨hsplit, hthread⟩

end Crew

end Terminfo
