import Terminfo.Proofs.Fleet.Refinement

set_option autoImplicit false

namespace Terminfo

/-- Something that is done with one session. An attempt to initialize it comes with the host that
it meets. -/
inductive Deed
  | init (h : Host) (term : Option String) (fd : Descriptor)
  | ask (query : Query)
  | retire

namespace Deed

variable {s : Session} {b : Switchboard}

def perform (s : Session) (b : Switchboard) : Deed → Answer × Session × Switchboard
  | .init h term fd =>
    let ((result, s), b) := (s.init h term fd).run b
    (result.map .integer, s, b)
  | .ask query =>
    let (answer, b) := (s.ask query).run b
    (answer, s, b)
  | .retire =>
    let ((), b) := s.retire.run b
    (.ok .unit, {}, b)

def answers (s : Session) (b : Switchboard) : List Deed → List Answer
  | [] => []
  | d :: deeds => (d.perform s b).1 :: answers (d.perform s b).2.1 (d.perform s b).2.2 deeds

end Deed

namespace OwnedSession

theorem diagnostic_of_init {o o' : OwnedSession} {h : Host} {term : Option String}
    {fd : Descriptor} {n : Int32} (hi : o.init h term fd = (.ok n, o')) : o'.diagnostic = n := by
  unfold init at hi
  split at hi
  · simp at hi
  · split at hi
    · simp at hi
    · obtain ⟨hn, rfl⟩ := Prod.mk.inj hi
      exact Except.ok.inj hn

def perform (o : OwnedSession) : Deed → Answer × OwnedSession
  | .init h term fd =>
    let (result, o) := o.init h term fd
    (result.map .integer, o)
  | .ask query => o.ask query
  | .retire => (.ok .unit, {})

def answers (o : OwnedSession) : List Deed → List Answer
  | [] => []
  | d :: deeds => (o.perform d).1 :: answers (o.perform d).2 deeds

def after (o : OwnedSession) (deeds : List Deed) : OwnedSession :=
  deeds.foldl (fun o d ↦ (o.perform d).2) o

theorem answers_append (o : OwnedSession) (deeds more : List Deed) :
    o.answers (deeds ++ more) = o.answers deeds ++ (o.after deeds).answers more := by
  induction deeds generalizing o with
  | nil => rfl
  | cons d deeds ih => simp only [List.cons_append, answers, ih, after, List.foldl_cons]

end OwnedSession

namespace Session

variable {s : Session} {b : Switchboard}

theorem Starts.live {r : (Except Error Int32 × Session) × Switchboard}
    {o : Except Error Int32 × OwnedSession} (hs : s.Live b) (hi : s.Starts b r o) :
    r.1.2.Live r.2 := by
  obtain ⟨fresh, haddresses, hcontext⟩ := hi.addresses
  intro a ha
  have hmem : a ∈ fresh ++ s.context.toList := by rw [← hcontext]; simp [ha]
  rw [haddresses]
  rcases List.mem_append.1 hmem with hfresh | hold
  · exact List.mem_append_left _ hfresh
  · exact List.mem_append_right _ (hs a (by simpa using hold))

theorem perform_owned (hb : b.Coherent) (hs : s.Live b) (d : Deed) :
    (d.perform s b).1 = ((s.owned b).perform d).1 ∧
      (d.perform s b).2.1.owned (d.perform s b).2.2 = ((s.owned b).perform d).2 ∧
      (d.perform s b).2.2.Coherent ∧ (d.perform s b).2.1.Live (d.perform s b).2.2 := by
  cases d with
  | init h term fd =>
    have hi := init_starts hb hs h term fd
    exact ⟨congrArg (Except.map Value.integer) hi.answer, hi.owned, hi.coherent, hi.live hs⟩
  | ask query =>
    have hq := ask_mirrors hb hs query
    exact ⟨hq.answer, hq.owned, hq.coherent, fun a ha ↦ hq.addresses ▸ hs a ha⟩
  | retire => exact ⟨rfl, rfl, retire_coherent hb hs, fun _ ha ↦ (nomatch ha)⟩

theorem answers_owned (hb : b.Coherent) (hs : s.Live b) (deeds : List Deed) :
    Deed.answers s b deeds = (s.owned b).answers deeds := by
  induction deeds generalizing s b with
  | nil => rfl
  | cons d deeds ih =>
    obtain ⟨hanswer, howned, hb', hs'⟩ := perform_owned hb hs d
    rw [Deed.answers, OwnedSession.answers, hanswer, ih hb' hs', howned]

end Session

abbrev Record := List (Deed × Answer)

namespace Record

def deeds (r : Record) : List Deed := r.map (·.1)

def answers (r : Record) : List Answer := r.map (·.2)

def session (r : Record) : OwnedSession := ({} : OwnedSession).after r.deeds

/-- The answers are those of a session that shares nothing. -/
def Faithful (r : Record) : Prop := r.answers = ({} : OwnedSession).answers r.deeds

theorem session_append (r : Record) (d : Deed) (answer : Answer) :
    session (r ++ [(d, answer)]) = (r.session.perform d).2 := by
  simp [session, deeds, OwnedSession.after]

theorem Faithful.append {r : Record} (hr : r.Faithful) {d : Deed} {answer : Answer}
    (h : answer = (r.session.perform d).1) : Faithful (r ++ [(d, answer)]) := by
  simp only [Faithful, answers, deeds, List.map_append, List.map_cons, List.map_nil] at hr ⊢
  rw [OwnedSession.answers_append, hr, h]
  rfl

end Record

structure Chronicle where
  fleet : Fleet
  live : List (String × Record) := []
  closed : List Record := []

namespace Chronicle

variable (k : Chronicle)

def records : List Record := k.live.map (·.2) ++ k.closed

def note (name : String) (d : Deed) (answer : Answer) : List (String × Record) :=
  match k.live.lookup name with
  | none => k.live
  | some r => Fleet.replace name (r ++ [(d, answer)]) k.live

def liveAfter (m : Move) : List (String × Record) :=
  let answer := (k.fleet.move m).1
  match m with
  | .create name => (name, []) :: k.live
  | .establish name term fd =>
    match answer with
    | .ok _ => (name, [(.init k.fleet.host term fd, answer)]) :: k.live
    | .error _ => k.live
  | .init name term fd => k.note name (.init k.fleet.host term fd) answer
  | .ask name query => k.note name (.ask query) answer
  | .retire name => Fleet.without name k.live
  | .retireHidden name => Fleet.withoutHidden name k.live
  | .setEnv .. | .resize .. => k.live

def endedBy (m : Move) : List Record :=
  let answer := (k.fleet.move m).1
  match m with
  | .establish _ term fd =>
    match answer with
    | .ok _ => []
    | .error _ => [[(.init k.fleet.host term fd, answer)]]
  | .retire name => ((k.live.lookup name).map (· ++ [(.retire, answer)])).toList
  | .retireHidden name => ((Fleet.hidden? name k.live).map (· ++ [(.retire, answer)])).toList
  | _ => []

def move (m : Move) : Chronicle where
  fleet := (k.fleet.move m).2
  live := k.liveAfter m
  closed := k.endedBy m ++ k.closed

def moveAll (moves : List Move) : Chronicle := moves.foldl move k

variable {k}
variable {name : String}

/-- Every record tells of a session that shares nothing, and the last state of each of them is what
the fleet holds for it. -/
structure Sound (k : Chronicle) : Prop where
  fleet : k.fleet.Coherent
  sessions : k.fleet.view.sessions = Fleet.mapValues Record.session k.live
  live : ∀ entry ∈ k.live, entry.2.Faithful
  closed : ∀ r ∈ k.closed, r.Faithful

theorem mapValues_note (hk : k.Sound) (name : String) (d : Deed) (answer : Answer) :
    Fleet.mapValues Record.session (k.note name d answer) =
      Fleet.replace name ((k.fleet.view.session name).perform d).2 k.fleet.view.sessions := by
  rw [note, OwnedFleet.session, hk.sessions, Fleet.lookup_mapValues]
  cases h : k.live.lookup name with
  | none =>
    refine (Fleet.replace_eq_self ?_).symm
    rw [Fleet.lookup_mapValues, h, Option.map_none]
  | some r =>
    rw [Fleet.mapValues_replace fun _ _ ↦ rfl, Record.session_append]
    rfl

theorem faithful_of_mem_note (hk : k.Sound) {d : Deed} {answer : Answer}
    (ha : (k.live.lookup name).isSome → answer = ((k.fleet.view.session name).perform d).1)
    {entry : String × Record} (he : entry ∈ k.note name d answer) : entry.2.Faithful := by
  unfold note at he
  cases h : k.live.lookup name with
  | none =>
    rw [h] at he
    exact hk.live entry he
  | some r =>
    rw [h] at he
    rcases Fleet.mem_of_mem_replace he with rfl | hold
    · have hr : r.Faithful :=
        hk.live (name, r) ((Fleet.perm_of_lookup h).mem_iff.2 List.mem_cons_self)
      have hsession : k.fleet.view.session name = r.session := by
        rw [OwnedFleet.session, hk.sessions, Fleet.lookup_mapValues, h]
        rfl
      exact hr.append (hsession ▸ ha (by simp [h]))
    · exact hk.live entry hold

theorem Sound.establish (hk : k.Sound) (name : String) (term : Option String)
    (fd : Descriptor) : (k.move (.establish name term fd)).Sound := by
  have ha := Fleet.answer_move hk.fleet (.establish name term fd)
  have hv := congrArg OwnedFleet.sessions (Fleet.view_move hk.fleet (.establish name term fd))
  have hhost : k.fleet.view.host = k.fleet.host := rfl
  simp only [OwnedFleet.move, hhost] at ha hv
  cases ho : ({} : OwnedSession).init k.fleet.host term fd with
  | mk result o =>
    cases result with
    | error e =>
      simp only [ho] at ha hv
      have hr : Record.Faithful [(.init k.fleet.host term fd, .error e)] := by
        simp [Record.Faithful, Record.answers, Record.deeds, OwnedSession.answers,
          OwnedSession.perform, ho, Except.map]
      refine ⟨hk.fleet.move _, ?_, ?_, ?_⟩
      · simpa only [move, liveAfter, ha] using hv.trans hk.sessions
      · simpa only [move, liveAfter, ha] using hk.live
      · simpa only [move, endedBy, ha, List.singleton_append, List.forall_mem_cons] using
          ⟨hr, hk.closed⟩
    | ok n =>
      simp only [ho] at ha hv
      have hn := OwnedSession.diagnostic_of_init ho
      have hr : Record.Faithful [(.init k.fleet.host term fd, .ok (.integer o.diagnostic))] := by
        simp [Record.Faithful, Record.answers, Record.deeds, OwnedSession.answers,
          OwnedSession.perform, ho, hn, Except.map]
      have hsession : Record.session
          [(.init k.fleet.host term fd, .ok (.integer o.diagnostic))] = o := by
        simp [Record.session, Record.deeds, OwnedSession.after, OwnedSession.perform, ho]
      refine ⟨hk.fleet.move _, ?_, ?_, ?_⟩
      · simp only [move, liveAfter, ha, Fleet.mapValues, List.map_cons, hsession]
        exact hv.trans (congrArg _ hk.sessions)
      · simpa only [move, liveAfter, ha, List.forall_mem_cons] using ⟨hr, hk.live⟩
      · simpa only [move, endedBy, ha, List.nil_append] using hk.closed

theorem Sound.init (hk : k.Sound) (name : String) (term : Option String) (fd : Descriptor) :
    (k.move (.init name term fd)).Sound := by
  have ha := Fleet.answer_move hk.fleet (.init name term fd)
  have hv := congrArg OwnedFleet.sessions (Fleet.view_move hk.fleet (.init name term fd))
  have hnote := mapValues_note hk name (.init k.fleet.host term fd)
    (k.fleet.move (.init name term fd)).1
  have hlookup : k.fleet.view.sessions.lookup name = (k.live.lookup name).map Record.session := by
    rw [hk.sessions, Fleet.lookup_mapValues]
  have hhost : k.fleet.view.host = k.fleet.host := rfl
  refine ⟨hk.fleet.move _, hv.trans (.trans ?_ hnote.symm), ?_, hk.closed⟩
  · cases h : k.live.lookup name with
    | none =>
      simp only [OwnedFleet.move, hlookup, h, Option.map_none]
      exact (Fleet.replace_eq_self (hlookup.trans (congrArg _ h))).symm
    | some r => simp [OwnedFleet.move, OwnedFleet.session, hlookup, h, OwnedSession.perform, hhost]
  · intro entry he
    refine faithful_of_mem_note hk (fun hsome ↦ ha.trans ?_) he
    obtain ⟨r, h⟩ := Option.isSome_iff_exists.1 hsome
    simp [OwnedFleet.move, OwnedFleet.session, hlookup, h, OwnedSession.perform, hhost]

theorem Sound.ask (hk : k.Sound) (name : String) (query : Query) :
    (k.move (.ask name query)).Sound := by
  refine ⟨hk.fleet.move _, ?_, ?_, hk.closed⟩
  · have hv := congrArg OwnedFleet.sessions (Fleet.view_move hk.fleet (.ask name query))
    have hnote := mapValues_note hk name (.ask query) (k.fleet.move (.ask name query)).1
    exact hv.trans hnote.symm
  · intro entry he
    exact faithful_of_mem_note hk (fun _ ↦ Fleet.answer_move hk.fleet (.ask name query)) he

theorem Sound.faithful_ended (hk : k.Sound) {r : Record} {entry : String × Record}
    (he : entry ∈ k.live) (hr : r = entry.2 ++ [(.retire, .ok .unit)]) : r.Faithful :=
  hr ▸ (hk.live entry he).append rfl

theorem Sound.retire (hk : k.Sound) (name : String) : (k.move (.retire name)).Sound := by
  have ha : (k.fleet.move (.retire name)).1 = .ok .unit := rfl
  have hv := congrArg OwnedFleet.sessions (Fleet.view_move hk.fleet (.retire name))
  refine ⟨hk.fleet.move _, ?_, fun entry he ↦ hk.live entry (Fleet.without_subset he), ?_⟩
  · refine hv.trans ?_
    simp only [OwnedFleet.move, hk.sessions]
    exact Fleet.without_mapValues
  · intro r hr
    rcases List.mem_append.1 hr with hended | hold
    · cases h : k.live.lookup name with
      | none => simp [endedBy, h] at hended
      | some old =>
        have hmem := (Fleet.perm_of_lookup h).mem_iff.2 List.mem_cons_self
        refine hk.faithful_ended hmem ?_
        rw [← ha]
        simpa [endedBy, h] using hended
    · exact hk.closed r hold

theorem Sound.retireHidden (hk : k.Sound) (name : String) :
    (k.move (.retireHidden name)).Sound := by
  have ha : (k.fleet.move (.retireHidden name)).1 = .ok .unit := rfl
  have hv := congrArg OwnedFleet.sessions (Fleet.view_move hk.fleet (.retireHidden name))
  refine ⟨hk.fleet.move _, ?_, fun entry he ↦ hk.live entry (Fleet.withoutHidden_subset he), ?_⟩
  · refine hv.trans ?_
    simp only [OwnedFleet.move, hk.sessions]
    exact Fleet.withoutHidden_mapValues
  · intro r hr
    rcases List.mem_append.1 hr with hended | hold
    · cases h : Fleet.hidden? name k.live with
      | none => simp [endedBy, h] at hended
      | some old =>
        have hmem := (Fleet.perm_of_hidden h).mem_iff.2 List.mem_cons_self
        refine hk.faithful_ended hmem ?_
        rw [← ha]
        simpa [endedBy, h] using hended
    · exact hk.closed r hold

theorem Sound.move (hk : k.Sound) (m : Move) : (k.move m).Sound := by
  cases m with
  | create name =>
    refine ⟨hk.fleet.move _, congrArg _ hk.sessions, ?_, hk.closed⟩
    intro entry he
    rcases List.mem_cons.1 he with rfl | hold
    · rfl
    · exact hk.live entry hold
  | establish name term fd => exact hk.establish name term fd
  | init name term fd => exact hk.init name term fd
  | ask name query => exact hk.ask name query
  | retire name => exact hk.retire name
  | retireHidden name => exact hk.retireHidden name
  | setEnv name value => exact ⟨hk.fleet.move _, hk.sessions, hk.live, hk.closed⟩
  | resize fd rows cols => exact ⟨hk.fleet.move _, hk.sessions, hk.live, hk.closed⟩

theorem Sound.moveAll (hk : k.Sound) (moves : List Move) : (k.moveAll moves).Sound := by
  induction moves generalizing k with
  | nil => exact hk
  | cons m moves ih => exact ih (hk.move m)

theorem Sound.faithful (hk : k.Sound) {r : Record} (hr : r ∈ k.records) : r.Faithful := by
  rcases List.mem_append.1 hr with hlive | hclosed
  · obtain ⟨entry, he, rfl⟩ := List.mem_map.1 hlive
    exact hk.live entry he
  · exact hk.closed r hclosed

theorem fleet_moveAll (k : Chronicle) (moves : List Move) :
    (k.moveAll moves).fleet = k.fleet.moveAll moves := by
  induction moves generalizing k with
  | nil => rfl
  | cons m moves ih => exact ih (k.move m)

theorem sound_start (host : Host) (allocator : Allocator) :
    Sound { fleet := .start host allocator } :=
  ⟨Fleet.coherent_start host allocator, rfl, fun _ he ↦ (nomatch he), fun _ hr ↦ (nomatch hr)⟩

end Chronicle

/-- Sessions do not show through one another. A fleet answers like one whose sessions share nothing,
and each session answers like one that is alone in a process of its own, where its attempts to
initialize it meet the same host. Whatever else happens to the environment and to the windows does
not reach it. -/
theorem isolation (host : Host) (allocator solo : Allocator) (moves : List Move) :
    let f := Fleet.start host allocator
    let k := ({ fleet := f } : Chronicle).moveAll moves
    f.answers moves = ({ host } : OwnedFleet).answers moves ∧
      k.fleet = f.moveAll moves ∧
      ∀ r ∈ k.records, r.answers = Deed.answers {} (.start solo) r.deeds := by
  intro f k
  refine ⟨Fleet.answers_view (Fleet.coherent_start host allocator) moves,
    Chronicle.fleet_moveAll _ moves, ?_⟩
  intro r hr
  have hk : k.Sound := (Chronicle.sound_start host allocator).moveAll moves
  have hsolo := Session.answers_owned (Switchboard.coherent_start solo) Fleet.live_empty r.deeds
  exact (hk.faithful hr).trans hsolo.symm

end Terminfo
