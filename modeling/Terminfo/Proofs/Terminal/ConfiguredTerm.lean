import Terminfo.Proofs.Terminal.Process

set_option autoImplicit false

namespace Terminfo

variable {ω α β : Type}

def Value.withTerm (term : Option String) : Value → Value
  | .config c => .config { c with term }
  | value => value

def Answer.withTerm (term : Option String) (answer : Answer) : Answer :=
  answer.map (Value.withTerm term)

def Event.withTerm (term : Option String) : Event α → Event α
  | .answered answer => .answered (Answer.withTerm term answer)
  | e => e

def Terminal.withTerm (t : Terminal ω) (term : Option String) : Terminal ω :=
  { t with config := { t.config with term } }

def Station.withTerm (s : Station ω) (term : Option String) : Station ω :=
  { s with terminal := s.terminal.withTerm term }

def Moment.withTerm (m : Moment ω α) (term : Option String) : Moment ω α :=
  { m with
    station := m.station.withTerm term
    events := m.events.map (Event.withTerm term) }

def Process.withTerm (p : Process ω α) (term : Option String) : Process ω α :=
  { p with moment := p.moment.withTerm term }

/-- What the closure does next does not depend on the terminal type in the settings that it sees. -/
def Closure.OverlooksTerm : Closure ω α → Prop
  | .leave _ => True
  | .perform _ next =>
    (∀ term answer, next (Answer.withTerm term answer) = next answer) ∧
      ∀ answer, (next answer).OverlooksTerm
  | .batch body next => body.OverlooksTerm ∧ ∀ exit, (next exit).OverlooksTerm

def Closure.Step.OverlooksTerm : Closure.Step ω α → Prop
  | .act _ => True
  | .batch body => body.OverlooksTerm

/-- Whether a step has failed is all that a list of steps heeds. -/
theorem Closure.overlooksTerm_ofSteps (strict : Bool) (last : Exit α)
    {steps : List (Closure.Step ω α)} (h : ∀ step ∈ steps, step.OverlooksTerm) :
    (ofSteps strict last steps).OverlooksTerm := by
  induction steps with
  | nil => trivial
  | cons step steps ih =>
    obtain ⟨hstep, hsteps⟩ := List.forall_mem_cons.1 h
    cases step with
    | act action =>
      refine ⟨fun term answer ↦ ?_, fun answer ↦ ?_⟩
      · cases strict && action.isFallible <;> cases answer <;> rfl
      · dsimp only
        split
        · trivial
        · exact ih hsteps
    | batch body =>
      refine ⟨hstep, fun exit ↦ ?_⟩
      dsimp only
      split
      · trivial
      · trivial
      · exact ih hsteps

variable {term : Option String}

theorem Answer.withTerm_map {f : β → Value} (hf : ∀ b, (f b).withTerm term = f b)
    (r : Except Error β) : Answer.withTerm term (r.map f) = r.map f := by
  cases r with
  | error e => rfl
  | ok b => exact congrArg Except.ok (hf b)

theorem Answer.withTerm_unit (r : Except Error Unit) :
    Answer.withTerm term (r.map fun _ ↦ .unit) = r.map fun _ ↦ .unit :=
  withTerm_map (fun _ ↦ rfl) r

theorem Session.ask_withTerm (s : Session) (query : Query) (b : Switchboard) :
    Answer.withTerm term ((s.ask query).run b).1 = ((s.ask query).run b).1 := by
  cases query with
  | isInitialized | diagnostic | describe => rfl
  | lookup name kind | flag name | number name | string name | expandParameters template parameters
  | expandPadding template lines =>
    simp only [ask, Guarded.run_bind, Guarded.run_pure]
    exact Answer.withTerm_map (fun _ ↦ rfl) _

variable [Sink ω]

namespace Terminal

theorem read_withTerm (t : Terminal ω) (h : Host) (r : Reading ω) (b : Switchboard) :
    ((t.withTerm term).read h r).run b =
      (Answer.withTerm term ((t.read h r).run b).1, ((t.read h r).run b).2) := by
  cases r with
  | controlString name parameters | controlStringAffecting lines name parameters | screenSize
  | screenLines | screenColumns =>
    simp only [read, Guarded.run_bind, Guarded.run_pure]
    rw [Answer.withTerm_map fun _ ↦ rfl]
    rfl
  | term | config | describe inLines | inspect view => rfl
  | ask query =>
    simp only [read]
    rw [Session.ask_withTerm]
    rfl

theorem flush_withTerm (t : Terminal ω) :
    (t.withTerm term).flush = (t.flush.1, t.flush.2.1.withTerm term, t.flush.2.2) := by
  by_cases h : t.depth ≠ 0
  · rw [flush, flush, if_pos h]
    exact if_pos h
  · rw [flush, flush, if_neg h]
    exact if_neg h

theorem write_withTerm (t : Terminal ω) (b : Bytes) :
    (t.withTerm term).write b = ((t.write b).1, (t.write b).2.1.withTerm term, (t.write b).2.2) :=
  flush_withTerm { t with pending := t.pending ++ b }

end Terminal

namespace Station

variable (s : Station ω)

theorem flush_withTerm : (s.withTerm term).flush (α := α) =
    (Answer.withTerm term (s.flush (α := α)).1, (s.flush (α := α)).2.1.withTerm term,
      (s.flush (α := α)).2.2) := by
  have hflush : (s.withTerm term).terminal.flush = _ := s.terminal.flush_withTerm
  simp only [flush, hflush, Answer.withTerm_unit]
  rfl

theorem write_withTerm (b : Bytes) : (s.withTerm term).write (α := α) b =
    (Answer.withTerm term (s.write (α := α) b).1, (s.write (α := α) b).2.1.withTerm term,
      (s.write (α := α) b).2.2) := by
  have hwrite : (s.withTerm term).terminal.write b = _ := s.terminal.write_withTerm b
  simp only [write, hwrite, Answer.withTerm_unit]
  rfl

theorem act_withTerm (action : Action ω) : (s.withTerm term).act (α := α) action =
    (Answer.withTerm term (s.act (α := α) action).1, (s.act (α := α) action).2.1.withTerm term,
      (s.act (α := α) action).2.2) := by
  cases action with
  | control name parameters =>
    have hcontrol : (s.withTerm term).terminal.controlString name parameters =
        s.terminal.controlString name parameters := rfl
    have hboard : (s.withTerm term).board = s.board := rfl
    simp only [act, hcontrol, hboard]
    generalize (s.terminal.controlString name parameters).run s.board = r
    obtain ⟨result, board⟩ := r
    cases result with
    | error e => rfl
    | ok b => exact write_withTerm { s with board } b
  | write b => exact s.write_withTerm b
  | flush => exact s.flush_withTerm
  | read r =>
    have hread : ((s.withTerm term).terminal.read s.host r).run s.board = _ :=
      s.terminal.read_withTerm s.host r s.board
    have hhost : (s.withTerm term).host = s.host := rfl
    have hboard : (s.withTerm term).board = s.board := rfl
    simp only [act, hhost, hboard, hread]
    rfl
  | setEnv name value => rfl
  | resize fd rows cols =>
    simp only [act, Answer.withTerm_unit]
    rfl

theorem map_withTerm_delivered (d : Option Delivery) :
    (d.toList.map (Event.delivered (α := α))).map (Event.withTerm term) =
      d.toList.map .delivered := by
  cases d <;> rfl

theorem map_withTerm_act (action : Action ω) :
    (s.act (α := α) action).2.2.map (Event.withTerm term) = (s.act action).2.2 := by
  cases action with
  | control name parameters =>
    simp only [act]
    generalize (s.terminal.controlString name parameters).run s.board = r
    obtain ⟨result, board⟩ := r
    cases result with
    | error e => rfl
    | ok b => exact congrArg (_ :: ·) (map_withTerm_delivered _)
  | write b => exact congrArg (_ :: ·) (map_withTerm_delivered _)
  | flush => exact map_withTerm_delivered _
  | read r | setEnv name value | resize fd rows cols => rfl

theorem settle_withTerm (exit : Exit α) : (s.withTerm term).settle exit =
    ((s.settle exit).1, (s.settle exit).2.1.withTerm term, (s.settle exit).2.2) := by
  have hdepth : (s.withTerm term).terminal.depth = s.terminal.depth := rfl
  cases exit with
  | aborted => simp [settle]
  | returned a | failed e =>
    by_cases h : s.terminal.depth = 0
    · simp only [settle, hdepth, h, ne_eq, not_true, false_or, Bool.false_eq_true, if_false]
      rfl
    · simp [settle, hdepth, h]

theorem map_withTerm_settle (exit : Exit α) :
    (s.settle exit).2.2.map (Event.withTerm term) = (s.settle exit).2.2 := by
  rcases s.settle_cases exit with h | ⟨exit', h⟩ <;> rw [h] <;> rfl

end Station

namespace Moment

variable {m : Moment ω α}

omit [Sink ω] in
structure OverlooksTerm (m : Moment ω α) : Prop where
  closure : m.closure.OverlooksTerm
  waiting : ∀ next ∈ m.waiting, ∀ exit, (next exit).OverlooksTerm

theorem OverlooksTerm.step (h : m.OverlooksTerm) : m.step.OverlooksTerm := by
  obtain ⟨closure, waiting, station, handed, events⟩ := m
  obtain ⟨hclosure, hwaiting⟩ := h
  cases closure with
  | leave exit =>
    cases waiting with
    | nil => exact ⟨hclosure, hwaiting⟩
    | cons next waiting =>
      obtain ⟨hnext, hrest⟩ := List.forall_mem_cons.1 hwaiting
      exact ⟨hnext _, hrest⟩
  | perform action next => exact ⟨hclosure.2 _, hwaiting⟩
  | batch body next => exact ⟨hclosure.1, List.forall_mem_cons.2 ⟨hclosure.2, hwaiting⟩⟩

omit [Sink ω] in
theorem hands_withTerm (s : Station ω) (action : Action ω) :
    (s.withTerm term).hands action = s.hands action := by
  cases action <;> rfl

theorem step_withTerm (h : m.OverlooksTerm) : (m.withTerm term).step = m.step.withTerm term := by
  obtain ⟨closure, waiting, station, handed, events⟩ := m
  obtain ⟨hclosure, -⟩ := h
  cases closure with
  | leave exit =>
    cases waiting with
    | nil => rfl
    | cons next waiting =>
      have hsettle : ((station.withTerm term).atDepth
          ((station.withTerm term).terminal.depth - 1)).settle exit = _ :=
        (station.atDepth (station.terminal.depth - 1)).settle_withTerm exit
      simp only [step, withTerm, leave, hsettle, List.map_append, Station.map_withTerm_settle]
      rfl
  | perform action next =>
    simp only [step, withTerm, perform, Station.act_withTerm, hclosure.1, hands_withTerm,
      List.map_append, Station.map_withTerm_act]
    rfl
  | batch body next =>
    simp only [step, withTerm, enter, List.map_append]
    rfl

end Moment

namespace Process

variable {p : Process ω α}

theorem next_withTerm (h : p.moment.OverlooksTerm) (x : Happening) :
    (p.withTerm term).next x = (p.next x).withTerm term := by
  cases x with
  | step =>
    simp only [next, withTerm, Moment.step_withTerm h]
  | move m => rfl

theorem overlooksTerm_next (h : p.moment.OverlooksTerm) (x : Happening) :
    (p.next x).moment.OverlooksTerm := by
  cases x with
  | step => exact h.step
  | move m => exact ⟨h.closure, h.waiting⟩

/-- Terminals that differ in nothing but the terminal type in their settings answer alike for ever,
but for that one setting. -/
theorem after_withTerm (h : p.moment.OverlooksTerm) (history : List Happening) :
    (p.withTerm term).after history = (p.after history).withTerm term := by
  induction history generalizing p with
  | nil => rfl
  | cons x history ih =>
    change ((p.withTerm term).next x).after history = ((p.next x).after history).withTerm term
    rw [next_withTerm h, ih (overlooksTerm_next h x)]

end Process

end Terminfo
