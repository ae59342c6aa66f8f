import Terminfo.Proofs.Fleet.Isolation
import Terminfo.Terminal

set_option autoImplicit false

namespace Terminfo

theorem Host.resize_of_error {h : Host} {fd : Descriptor} {rows cols : UInt16} {e : Error}
    (he : (h.resize fd rows cols).1 = .error e) : (h.resize fd rows cols).2 = h := by
  unfold resize setWindowSize WindowSize.setOn at he ⊢
  cases hline : h.devices.line fd with
  | error cause => rfl
  | ok line => simp [hline] at he

namespace OwnedFleet

variable {w : OwnedFleet}

theorem replace_session (name : String) :
    Fleet.replace name (w.session name) w.sessions = w.sessions := by
  cases h : w.sessions.lookup name with
  | none => exact Fleet.replace_eq_self h
  | some o =>
    rw [session, h]
    exact Fleet.replace_lookup h

theorem move_of_error {m : Move} {e : Error} (he : (w.move m).1 = .error e) :
    (w.move m).2 = w := by
  cases m with
  | create name | retire name | retireHidden name | setEnv name value => cases he
  | establish name term fd =>
    simp only [move] at he ⊢
    split
    · rfl
    · rename_i hok
      simp [hok] at he
  | init name term fd =>
    simp only [move] at he ⊢
    split
    · rfl
    · rename_i o ho
      simp only [ho] at he
      rw [OwnedSession.init_of_error (error_of_map he), Fleet.replace_lookup ho]
  | ask name query =>
    have hsame : ((w.session name).ask query).2 = w.session name := OwnedSession.ask_of_error he
    simp only [move, hsame, replace_session]
  | resize fd rows cols =>
    have hhost := Host.resize_of_error (error_of_map he)
    simp only [move, hhost]

end OwnedFleet

namespace Session

variable {s : Session} {b : Switchboard}

theorem init_cases (h : Host) (term : Option String) (fd : Descriptor) :
    ((s.init h term fd).run b).1.2 = s ∨ ((s.init h term fd).run b).1.2.isInitialized := by
  unfold init
  split
  · exact .inl rfl
  · simp only [Guarded.run_bind, Guarded.run_holding]
    split
    · exact .inl rfl
    · exact .inr rfl

theorem isInitialized_of_establish {h : Host} {term : Option String} {fd : Descriptor}
    (hs : ((establish h term fd).run b).1 = .ok s) : s.isInitialized ∨ s = {} := by
  have hinit := init_cases (s := {}) (b := b) h term fd
  simp only [establish, Guarded.run_bind] at hs
  generalize (init {} h term fd).run b = r at hinit hs
  obtain ⟨⟨result, t⟩, b'⟩ := r
  cases result with
  | error e => cases hs
  | ok n =>
    obtain rfl : t = s := Except.ok.inj hs
    exact hinit.symm

end Session

namespace Fleet

variable {f g : Fleet} {name : String} {s : Session} {α : Type}

theorem answers_of_view_eq (hf : f.Coherent) (hg : g.Coherent) (h : g.view = f.view)
    (later : List Move) : g.answers later = f.answers later := by
  rw [answers_view hg, h, answers_view hf]

theorem view_of_error (hf : f.Coherent) {m : Move} {e : Error} (he : (f.move m).1 = .error e) :
    (f.move m).2.view = f.view := by
  rw [view_move hf]
  exact OwnedFleet.move_of_error ((answer_move hf m).symm.trans he)

def kept (f : Fleet) : List Move → List Move
  | [] => []
  | m :: moves =>
    match (f.move m).1 with
    | .ok _ => m :: kept (f.move m).2 moves
    | .error _ => kept (f.move m).2 moves

theorem view_moveAll_kept (hf : f.Coherent) (hg : g.Coherent) (h : g.view = f.view)
    (moves : List Move) : (g.moveAll (f.kept moves)).view = (f.moveAll moves).view := by
  induction moves generalizing f g with
  | nil => exact h
  | cons m moves ih =>
    unfold kept
    split
    · have hmove : (g.move m).2.view = (f.move m).2.view := by rw [view_move hg, view_move hf, h]
      exact ih (hf.move m) (hg.move m) hmove
    · rename_i e he
      exact ih (hf.move m) hg (h.trans (view_of_error hf he).symm)

def carryOut (f : Fleet) (p : Guarded α) : α × Fleet :=
  let (a, board) := p.run f.board
  (a, { f with board })

theorem unseen_establish (hf : f.Coherent) {term : Option String} {fd : Descriptor} {e : Error}
    {board : Switchboard} (he : (Session.establish f.host term fd).run f.board = (.error e, board)) :
    ({ f with board } : Fleet).Coherent ∧ ({ f with board } : Fleet).view = f.view := by
  have hmove : f.move (.establish "" term fd) = (.error e, { f with board }) := by
    simp only [move, he]
  have hview := view_of_error hf (congrArg Prod.fst hmove)
  have hcoherent := hf.move (.establish "" term fd)
  rw [hmove] at hview hcoherent
  exact ⟨hcoherent, hview⟩

/-- A session that is not initialized is a new one. -/
def Clean (f : Fleet) : Prop := ∀ entry ∈ f.sessions, entry.2.isInitialized ∨ entry.2 = {}

theorem Clean.move (hf : f.Clean) (m : Move) : (f.move m).2.Clean := by
  cases m with
  | create name => exact List.forall_mem_cons.2 ⟨.inr rfl, hf⟩
  | establish name term fd =>
    simp only [Fleet.move]
    split
    · exact hf
    · rename_i s board hrun
      have hs := Session.isInitialized_of_establish (s := s) (congrArg Prod.fst hrun)
      exact List.forall_mem_cons.2 ⟨hs, hf⟩
  | init name term fd =>
    simp only [Fleet.move]
    split
    · exact hf
    · rename_i s hs
      intro entry he
      rcases mem_of_mem_replace he with rfl | hold
      · rcases Session.init_cases (s := s) (b := f.board) f.host term fd with hsame | hnew
        · rw [hsame]
          exact hf (name, s) ((perm_of_lookup hs).mem_iff.2 List.mem_cons_self)
        · exact .inl hnew
      · exact hf entry hold
  | ask name query => exact hf
  | retire name => exact fun entry he ↦ hf entry (without_subset he)
  | retireHidden name => exact fun entry he ↦ hf entry (withoutHidden_subset he)
  | setEnv name value => exact hf
  | resize fd rows cols => exact hf

theorem Clean.moveAll (hf : f.Clean) (moves : List Move) : (f.moveAll moves).Clean := by
  induction moves generalizing f with
  | nil => exact hf
  | cons m moves ih => exact ih (hf.move m)

theorem Clean.eq_empty (hf : f.Clean) (hs : f.session? name = some s)
    (hnew : s.isInitialized = false) : s = {} := by
  have hmem : (name, s) ∈ f.sessions := (perm_of_lookup hs).mem_iff.2 List.mem_cons_self
  rcases hf _ hmem with h | h
  · simp [hnew] at h
  · exact h

theorem answers_asks (hf : f.Coherent) (name : String) (queries : List Query) :
    f.answers (queries.map (.ask name)) =
      ((f.session name).owned f.board).answers (queries.map .ask) := by
  induction queries generalizing f with
  | nil => rfl
  | cons q queries ih =>
    have hq := Session.ask_mirrors hf.board (hf.live_session name) q
    have hsession : (f.move (.ask name q)).2.session name = f.session name := rfl
    have hboard : (f.move (.ask name q)).2.board = (((f.session name).ask q).run f.board).2 := rfl
    simp only [List.map_cons, answers, OwnedSession.answers, OwnedSession.perform]
    rw [ih (hf.move _), hsession, hboard, hq.owned]
    exact congrArg (· :: _) hq.answer

theorem session_eq (hs : f.session? name = some s) : f.session name = s := by
  simp [session, hs]

theorem move_init_of_isInitialized (hs : f.session? name = some s) (hi : s.isInitialized)
    (term : Option String) (fd : Descriptor) :
    f.move (.init name term fd) = (.error .alreadyInitialized, f) := by
  simp only [move, hs, Session.init, hi, if_true, Guarded.run_pure, replace_lookup hs]
  rfl

theorem init_of_empty (hf : f.Coherent) (hs : f.session? name = some {}) (term : Option String)
    (fd : Descriptor) :
    let tried := f.move (.init name term fd)
    let alone := ({} : OwnedSession).init f.host term fd
    tried.1 = alone.1.map .integer ∧ (tried.2.session name).owned tried.2.board = alone.2 := by
  intro tried alone
  have hstarts := Session.init_starts hf.board (hf.live_of_lookup hs) f.host term fd
  have hlookup : f.sessions.lookup name = some {} := hs
  refine ⟨?_, ?_⟩
  · simp only [tried, move, session?, hlookup, hstarts.answer]
    rfl
  · simp only [tried, move, session?, hlookup, session, lookup_replace_self hlookup,
      Option.getD_some]
    exact hstarts.owned

theorem owned_of_init (hf : f.Coherent) (hs : f.session? name = some s) (hi : s.isInitialized)
    (other : String) (term : Option String) (fd : Descriptor) :
    (f.move (.init other term fd)).2.session? name = some s ∧
      s.owned (f.move (.init other term fd)).2.board = s.owned f.board := by
  by_cases hne : other = name
  · subst hne
    rw [move_init_of_isInitialized hs hi]
    exact ⟨hs, rfl⟩
  · cases ht : f.sessions.lookup other with
    | none =>
      simp only [move, session?, ht]
      exact ⟨hs, trivial⟩
    | some t =>
      have hstarts := Session.init_starts hf.board (hf.live_of_lookup ht) f.host term fd
      simp only [move, session?, ht, lookup_replace_of_ne hne]
      exact ⟨hs, Session.owned_congr fun {a} ha ↦ hstarts.others (hf.live_of_lookup hs a ha)⟩

abbrev Attempt := String × Option String × Descriptor

def Attempt.move (a : Attempt) : Move := .init a.1 a.2.1 a.2.2

theorem owned_of_attempts (hf : f.Coherent) (hs : f.session? name = some s)
    (hi : s.isInitialized) (attempts : List Attempt) :
    (f.moveAll (attempts.map Attempt.move)).session? name = some s ∧
      s.owned (f.moveAll (attempts.map Attempt.move)).board = s.owned f.board := by
  induction attempts generalizing f with
  | nil => exact ⟨hs, rfl⟩
  | cons a attempts ih =>
    obtain ⟨hsession, howned⟩ := owned_of_init hf hs hi a.1 a.2.1 a.2.2
    obtain ⟨hsession', howned'⟩ := ih (hf.move a.move) hsession
    exact ⟨hsession', howned'.trans howned⟩

variable {ω : Type} [Sink ω]

/-- A terminal that cannot be set up leaves nothing behind that a session could show. -/
theorem unseen_terminal (hf : f.Coherent) {config : Config} {out : ω} {e : Error}
    (he : (f.carryOut (Terminal.establish f.host config out)).1 = .error e) :
    (f.carryOut (Terminal.establish f.host config out)).2.Coherent ∧
      (f.carryOut (Terminal.establish f.host config out)).2.view = f.view := by
  unfold carryOut Terminal.establish at he ⊢
  cases hvalid : config.validate with
  | error fault => exact ⟨hf, rfl⟩
  | ok u =>
    simp only [hvalid, Guarded.run_bind] at he ⊢
    cases hrun : (Session.establish f.host config.term (Sink.descriptor out)).run f.board
      with | mk result board
    rw [hrun] at he
    cases result with
    | error e' => exact unseen_establish hf hrun
    | ok s => cases he

theorem unseen_tty (hf : f.Coherent) {config : Config} {e : Error}
    (he : (f.carryOut (Terminal.openTty f.host config)).1 = .error e) :
    (f.carryOut (Terminal.openTty f.host config)).2.Coherent ∧
      (f.carryOut (Terminal.openTty f.host config)).2.view = f.view := by
  unfold Terminal.openTty at he ⊢
  cases hvalid : config.validate with
  | error fault => exact ⟨hf, rfl⟩
  | ok u =>
    simp only [hvalid] at he ⊢
    cases hpath : f.host.openPath config.ttyPath with
    | error cause => exact ⟨hf, rfl⟩
    | ok fd =>
      simp only [hpath] at he
      exact unseen_terminal hf he

/-- Failures leave no trace. After a call that fails, whatever comes later is answered as if the call
had not been made, and so all calls that fail may be left out of a history. A session that is not
initialized is as good as new however often this was tried, and one that is initialized keeps its
context and its answers through any attempts. -/
theorem failures_leave_no_trace (host : Host) (allocator : Allocator) (moves : List Move) :
    let f := (start host allocator).moveAll moves
    (∀ m e, (f.move m).1 = .error e → ∀ later, (f.move m).2.answers later = f.answers later) ∧
      (∀ (config : Config) (out : ω),
        let made := f.carryOut (Terminal.establish f.host config out)
        ∀ e, made.1 = .error e → ∀ later, made.2.answers later = f.answers later) ∧
      (∀ config : Config,
        let made := f.carryOut (Terminal.openTty f.host config)
        ∀ e, made.1 = .error e → ∀ later, made.2.answers later = f.answers later) ∧
      (∀ more later, (f.moveAll more).answers later = (f.moveAll (f.kept more)).answers later) ∧
      (∀ name s, f.session? name = some s → s.isInitialized = false →
        s = {} ∧ ∀ term fd,
          let tried := f.move (.init name term fd)
          tried.1 = (Switchboard.acquired f.host term fd).map (fun _ ↦ .integer 0) ∧
            ∀ queries : List Query, tried.2.answers (queries.map (.ask name)) =
              (({} : OwnedSession).init f.host term fd).2.answers (queries.map .ask)) ∧
      (∀ name s, f.session? name = some s → s.isInitialized = true → ∀ attempts : List Attempt,
        let g := f.moveAll (attempts.map Attempt.move)
        g.session? name = some s ∧
          (∀ term fd, g.move (.init name term fd) = (.error .alreadyInitialized, g)) ∧
          ∀ queries : List Query, g.answers (queries.map (.ask name)) = f.answers (queries.map (.ask name))) := by
  intro f
  have hf : f.Coherent := (coherent_start host allocator).moveAll moves
  have hclean : f.Clean := Clean.moveAll (f := start host allocator) (by simp [Clean, start]) moves
  refine ⟨?_, ?_, ?_, ?_, ?_, ?_⟩
  · intro m e he later
    exact answers_of_view_eq hf (hf.move m) (view_of_error hf he) later
  · intro config out made e he later
    obtain ⟨hcoherent, hview⟩ := unseen_terminal hf he
    exact answers_of_view_eq hf hcoherent hview later
  · intro config made e he later
    obtain ⟨hcoherent, hview⟩ := unseen_tty hf he
    exact answers_of_view_eq hf hcoherent hview later
  · intro more later
    exact answers_of_view_eq (hf.moveAll _) (hf.moveAll _)
      (view_moveAll_kept hf hf rfl more).symm later
  · intro name s hs hnew
    obtain rfl := hclean.eq_empty hs hnew
    refine ⟨rfl, fun term fd ↦ ?_⟩
    obtain ⟨hanswer, howned⟩ := init_of_empty hf hs term fd
    refine ⟨hanswer.trans (OwnedSession.init_empty_fst f.host term fd), fun queries ↦ ?_⟩
    rw [answers_asks (hf.move _), howned]
  · intro name s hs hi attempts g
    have hg : g.Coherent := hf.moveAll _
    obtain ⟨hsession, howned⟩ := owned_of_attempts hf hs hi attempts
    refine ⟨hsession, fun term fd ↦ move_init_of_isInitialized hsession hi term fd, ?_⟩
    intro queries
    rw [answers_asks hg, answers_asks hf, session_eq hsession, session_eq hs, howned]

theorem failures_leave_no_trace_hardcopy :
    let printer : Entry := { flags := [("hc", .value true)] }
    let host : Host := { entries := [("x", some {}), ("printer", some printer)] }
    let f := (start host .ascending).moveAll [.create "n", .establish "s" (some "x") 1]
    let failed := f.move (.init "n" (some "printer") 1)
    failed.1 = .error (.hardcopy "printer") ∧ failed.2.board.marker ≠ f.board.marker ∧
      ∀ later, failed.2.answers later = f.answers later := by
  intro printer host f failed
  have hfailed : failed.1 = .error (.hardcopy "printer") := by decide +kernel
  refine ⟨hfailed, by decide +kernel, ?_⟩
  exact (failures_leave_no_trace (ω := OpenFile) host .ascending _).1 _ _ hfailed

end Fleet

end Terminfo
