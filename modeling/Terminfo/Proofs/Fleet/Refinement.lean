import Terminfo.Proofs.Fleet.Ownership

set_option autoImplicit false

namespace Terminfo

/-- The world that the users of a fleet see: nothing is shared, and each session has its own
context. -/
structure OwnedFleet where
  host : Host
  sessions : List (String × OwnedSession) := []

namespace OwnedFleet

variable (w : OwnedFleet)

def session (name : String) : OwnedSession := (w.sessions.lookup name).getD {}

def move : Move → Answer × OwnedFleet
  | .create name => (.ok .unit, { w with sessions := (name, {}) :: w.sessions })
  | .establish name term fd =>
    match ({} : OwnedSession).init w.host term fd with
    | (.error e, _) => (.error e, w)
    | (.ok _, o) => (.ok (.integer o.diagnostic), { w with sessions := (name, o) :: w.sessions })
  | .init name term fd =>
    match w.sessions.lookup name with
    | none => (.ok .unit, w)
    | some o =>
      let (result, o) := o.init w.host term fd
      (result.map .integer, { w with sessions := Fleet.replace name o w.sessions })
  | .ask name query =>
    let (answer, o) := (w.session name).ask query
    (answer, { w with sessions := Fleet.replace name o w.sessions })
  | .retire name => (.ok .unit, { w with sessions := Fleet.without name w.sessions })
  | .retireHidden name => (.ok .unit, { w with sessions := Fleet.withoutHidden name w.sessions })
  | .setEnv name value => (.ok .unit, { w with host := w.host.setEnv name value })
  | .resize fd rows cols =>
    let (result, host) := w.host.resize fd rows cols
    (result.map fun () ↦ .unit, { w with host })

def answers (w : OwnedFleet) : List Move → List Answer
  | [] => []
  | m :: moves => (w.move m).1 :: answers (w.move m).2 moves

end OwnedFleet

namespace Fleet

variable {f : Fleet} {s : Session} {name : String}

def answers (f : Fleet) : List Move → List Answer
  | [] => []
  | m :: moves => (f.move m).1 :: answers (f.move m).2 moves

def view (f : Fleet) : OwnedFleet where
  host := f.host
  sessions := mapValues (·.owned f.board) f.sessions

theorem Coherent.ne_of_perm (hf : f.Coherent) {rest : List (String × Session)}
    (hperm : f.sessions.Perm ((name, s) :: rest)) {entry : String × Session} (he : entry ∈ rest)
    {a : Address} (ha : entry.2.context = some a) : s.context ≠ some a := by
  intro hs
  have hnodup := hf.owned.nodup_iff.2 hf.board.orderly.nodup
  rw [(addressesOf_perm hperm).nodup_iff, addressesOf_cons] at hnodup
  exact List.disjoint_of_nodup_append hnodup (by simp [hs])
    (List.mem_filterMap.2 ⟨entry, he, ha⟩)

theorem lookup_view :
    f.view.sessions.lookup name = (f.sessions.lookup name).map (·.owned f.board) :=
  lookup_mapValues (l := f.sessions) (g := fun s : Session ↦ s.owned f.board)

theorem session_view : f.view.session name = (f.session name).owned f.board := by
  rw [OwnedFleet.session, lookup_view, session, session?]
  cases f.sessions.lookup name <;> rfl

theorem Coherent.mapValues_owned (hf : f.Coherent) {b : Switchboard}
    (h : ∀ {x}, x ∈ f.board.provider.addresses → b.provider.held? x = f.board.provider.held? x) :
    mapValues (·.owned b) f.sessions = mapValues (·.owned f.board) f.sessions :=
  mapValues_congr fun _ he ↦ Session.owned_congr fun {a} ha ↦ h (hf.live he a ha)

theorem establish_view (hf : f.Coherent) (term : Option String) (fd : Descriptor) :
    Prod.map id view (f.move (.establish name term fd)) =
      f.view.move (.establish name term fd) := by
  have hi := Session.init_starts hf.board live_empty f.host term fd
  have hempty : ({} : Session).owned f.board = {} := rfl
  have hhost : f.view.host = f.host := rfl
  simp only [move, Session.establish, Guarded.run_bind, OwnedFleet.move, hhost]
  rw [hempty] at hi
  generalize (({} : Session).init f.host term fd).run f.board = r at hi ⊢
  generalize ({} : OwnedSession).init f.host term fd = o at hi ⊢
  obtain ⟨⟨result, s⟩, board⟩ := r
  obtain ⟨result', o⟩ := o
  have hsessions := hf.mapValues_owned hi.others
  obtain rfl : result = result' := hi.answer
  obtain rfl : s.owned board = o := hi.owned
  cases result with
  | error e => simp [view, hsessions]
  | ok n =>
    simp only [Guarded.run_pure, Prod.map, id, view, mapValues, List.map_cons] at hsessions ⊢
    rw [hsessions, Session.diagnostic_owned]

theorem init_view (hf : f.Coherent) (term : Option String) (fd : Descriptor) :
    Prod.map id view (f.move (.init name term fd)) = f.view.move (.init name term fd) := by
  have hhost : f.view.host = f.host := rfl
  cases h : f.sessions.lookup name with
  | none => simp [move, session?, OwnedFleet.move, lookup_view, h]
  | some s =>
    have hi := Session.init_starts hf.board (hf.live_of_lookup h) f.host term fd
    simp only [move, session?, OwnedFleet.move, lookup_view, h, hhost, Option.map_some]
    generalize (s.init f.host term fd).run f.board = r at hi ⊢
    generalize (s.owned f.board).init f.host term fd = o at hi ⊢
    obtain ⟨⟨result, t⟩, board⟩ := r
    obtain ⟨result', o⟩ := o
    obtain rfl : result = result' := hi.answer
    obtain rfl : t.owned board = o := hi.owned
    have hsessions : mapValues (·.owned board) (replace name t f.sessions) =
        replace name (t.owned board) (mapValues (·.owned f.board) f.sessions) := by
      refine mapValues_replace fun entry he ↦ Session.owned_congr fun {a} ha ↦ hi.others ?_
      exact hf.live ((perm_of_lookup h).mem_iff.2 (List.mem_cons_of_mem _ he)) a ha
    simp [view, hsessions]

theorem ask_view (hf : f.Coherent) (query : Query) :
    Prod.map id view (f.move (.ask name query)) = f.view.move (.ask name query) := by
  have hq := Session.ask_mirrors hf.board (hf.live_session name) query
  simp only [move, OwnedFleet.move, session_view]
  generalize ((f.session name).ask query).run f.board = r at hq ⊢
  generalize ((f.session name).owned f.board).ask query = o at hq ⊢
  obtain ⟨answer, board⟩ := r
  obtain ⟨answer', o⟩ := o
  obtain rfl : answer = answer' := hq.answer
  obtain rfl : (f.session name).owned board = o := hq.owned
  have hsessions : mapValues (·.owned board) f.sessions =
      replace name ((f.session name).owned board) (mapValues (·.owned f.board) f.sessions) := by
    cases h : f.sessions.lookup name with
    | none =>
      have hs : f.session name = {} := by simp [session, session?, h]
      rw [replace_eq_self (by rw [lookup_mapValues, h, Option.map_none])]
      exact hf.mapValues_owned fun {x} _ ↦ hq.others (by simp [hs])
    | some s =>
      have hs : f.session name = s := by simp [session, session?, h]
      have hothers : ∀ entry ∈ without name f.sessions,
          entry.2.owned board = entry.2.owned f.board := fun entry he ↦
        Session.owned_congr fun {a} ha ↦ hq.others (hs ▸ hf.ne_of_perm (perm_of_lookup h) he ha)
      have hmap : mapValues (·.owned board) (replace name s f.sessions) =
          replace name (s.owned board) (mapValues (·.owned f.board) f.sessions) :=
        mapValues_replace hothers
      rw [replace_lookup h] at hmap
      rw [hmap, hs]
  simp [view, hsessions]

theorem retire_view (hf : f.Coherent) :
    Prod.map id view (f.move (.retire name)) = f.view.move (.retire name) := by
  have hsessions : mapValues (·.owned ((f.session name).retire.run f.board).2)
      (without name f.sessions) = without name (mapValues (·.owned f.board) f.sessions) := by
    rw [without_mapValues]
    refine mapValues_congr fun entry he ↦ Session.owned_congr fun {a} ha ↦
      Session.held?_retire ?_
    cases h : f.sessions.lookup name with
    | none => simp [session, session?, h]
    | some s =>
      simp only [session, session?, h, Option.getD_some]
      exact hf.ne_of_perm (perm_of_lookup h) he ha
  simp only [move, OwnedFleet.move, Prod.map, id, view, hsessions]

theorem retireHidden_view (hf : f.Coherent) :
    Prod.map id view (f.move (.retireHidden name)) = f.view.move (.retireHidden name) := by
  have hsessions : mapValues
      (·.owned (((hidden? name f.sessions).getD {}).retire.run f.board).2)
      (withoutHidden name f.sessions) =
        withoutHidden name (mapValues (·.owned f.board) f.sessions) := by
    rw [withoutHidden_mapValues]
    refine mapValues_congr fun entry he ↦ Session.owned_congr fun {a} ha ↦
      Session.held?_retire ?_
    cases h : hidden? name f.sessions with
    | none => simp
    | some s => exact hf.ne_of_perm (perm_of_hidden h) he ha
  simp only [move, OwnedFleet.move, Prod.map, id, view, hsessions]

theorem move_view (hf : f.Coherent) (m : Move) :
    Prod.map id view (f.move m) = f.view.move m := by
  cases m with
  | create name => rfl
  | establish name term fd => exact establish_view hf term fd
  | init name term fd => exact init_view hf term fd
  | ask name query => exact ask_view hf query
  | retire name => exact retire_view hf
  | retireHidden name => exact retireHidden_view hf
  | setEnv name value => rfl
  | resize fd rows cols => rfl

theorem answer_move (hf : f.Coherent) (m : Move) : (f.move m).1 = (f.view.move m).1 :=
  congrArg Prod.fst (move_view hf m)

theorem view_move (hf : f.Coherent) (m : Move) : (f.move m).2.view = (f.view.move m).2 :=
  congrArg Prod.snd (move_view hf m)

theorem answers_view (hf : f.Coherent) (moves : List Move) :
    f.answers moves = f.view.answers moves := by
  induction moves generalizing f with
  | nil => rfl
  | cons m moves ih =>
    rw [answers, OwnedFleet.answers, answer_move hf m, ih (hf.move m), view_move hf m]

end Fleet

end Terminfo
