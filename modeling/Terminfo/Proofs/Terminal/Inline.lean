import Terminfo.Proofs.Terminal.Delivery

set_option autoImplicit false

namespace Terminfo

variable {ω α : Type}

namespace Event

def bytes : Event α → Bytes
  | .accepted b => b
  | _ => []

def handed (events : List (Event α)) : Bytes := events.flatMap bytes

def attempts (events : List (Event α)) : List Delivery := events.filterMap attempt?

def received (events : List (Event α)) : Bytes := (attempts events).flatMap Delivery.received

def isMark : Event α → Bool
  | .entered | .left _ => true
  | _ => false

def unmarked (events : List (Event α)) : List (Event α) := events.filter (!·.isMark)

variable (e : Event α) (events more : List (Event α))

theorem handed_cons : handed (e :: events) = e.bytes ++ handed events := List.flatMap_cons

@[simp]
theorem handed_append : handed (events ++ more) = handed events ++ handed more :=
  List.flatMap_append

theorem attempts_cons : attempts (e :: events) = e.attempt?.toList ++ attempts events := by
  cases e <;> rfl

@[simp]
theorem attempts_append : attempts (events ++ more) = attempts events ++ attempts more :=
  List.filterMap_append

theorem unmarked_cons : unmarked (e :: events) =
    (if e.isMark then [] else [e]) ++ unmarked events := by
  cases e <;> rfl

@[simp]
theorem unmarked_append : unmarked (events ++ more) = unmarked events ++ unmarked more :=
  List.filter_append ..

theorem handed_unmarked : handed (unmarked events) = handed events := by
  induction events with
  | nil => rfl
  | cons e events ih => cases e <;> simp [unmarked_cons, isMark, handed_cons, bytes, ih]

theorem attempts_unmarked : attempts (unmarked events) = attempts events := by
  induction events with
  | nil => rfl
  | cons e events ih => cases e <;> simp [unmarked_cons, isMark, attempts_cons, attempt?, ih]

end Event

namespace Station

variable [Sink ω]

theorem act_events (s : Station ω) (action : Action ω) : ∃ d : Option Delivery,
    ((s.act (α := α) action).2.2 = d.toList.map .delivered ∧ s.hands action = []) ∨
      (s.act (α := α) action).2.2 = .accepted (s.hands action) :: d.toList.map .delivered := by
  cases action with
  | control name parameters =>
    cases hrun : (s.terminal.controlString name parameters).run s.board with | mk result board
    cases result with
    | error e => exact ⟨none, .inl (by simp [act, hands, hrun])⟩
    | ok b =>
      simp only [act, hands, hrun]
      exact ⟨_, .inr rfl⟩
  | write b => exact ⟨_, .inr rfl⟩
  | flush => exact ⟨_, .inl ⟨rfl, rfl⟩⟩
  | read r | setEnv name value | resize fd rows cols => exact ⟨none, .inl ⟨rfl, rfl⟩⟩

theorem handed_act (s : Station ω) (action : Action ω) :
    Event.handed (s.act (α := α) action).2.2 = s.hands action := by
  obtain ⟨d, ⟨h, hnone⟩ | h⟩ := s.act_events (α := α) action
  · rw [h, hnone]
    cases d <;> rfl
  · rw [h]
    cases d <;> simp [Event.handed, Event.bytes]

theorem unmarked_act (s : Station ω) (action : Action ω) :
    Event.unmarked (s.act (α := α) action).2.2 = (s.act action).2.2 := by
  obtain ⟨d, ⟨h, -⟩ | h⟩ := s.act_events (α := α) action
  · rw [h]
    cases d <;> rfl
  · rw [h]
    cases d <;> rfl

theorem handed_settle (s : Station ω) (exit : Exit α) :
    Event.handed (s.settle exit).2.2 = [] := by
  obtain h | ⟨exit', h⟩ := s.settle_cases exit <;> rw [h] <;> rfl

end Station

namespace Closure

variable [Sink ω]

/-- The bytes that a program hands over are those of the attempts that it makes and those that are
held after it, less those that were held before. -/
theorem passes_run (c : Closure ω α) (s : Station ω) :
    s.terminal.Passes (c.run s).2.1.terminal (Event.handed (c.run s).2.2)
      (Event.attempts (c.run s).2.2) := by
  induction c generalizing s with
  | leave exit => exact .of_eq rfl rfl
  | perform action next ih =>
    have hact : s.terminal.Passes _ _ (Event.attempts (s.act (α := α) action).2.2) :=
      s.passes_act action
    rw [← s.handed_act (α := α)] at hact
    simpa [run, Event.handed_cons, Event.bytes, Event.attempts_cons, Event.attempt?] using
      hact.trans (ih (s.act (α := α) action).1 _)
  | batch body next ihbody ihnext =>
    have hopen : s.terminal.Passes (s.atDepth (s.terminal.depth + 1)).terminal [] [] :=
      .of_eq rfl rfl
    have hbody := hopen.trans (ihbody (s.atDepth (s.terminal.depth + 1)))
    simp only [run]
    generalize body.run (s.atDepth (s.terminal.depth + 1)) = ran at hbody ⊢
    obtain ⟨inner, s', during⟩ := ran
    have hclose : s'.terminal.Passes (s'.atDepth (s'.terminal.depth - 1)).terminal [] [] :=
      .of_eq rfl rfl
    have hend : (s'.atDepth (s'.terminal.depth - 1)).terminal.Passes _ _
        (Event.attempts ((s'.atDepth (s'.terminal.depth - 1)).settle inner).2.2) :=
      Station.passes_settle _ inner
    have hquiet := Station.handed_settle (s'.atDepth (s'.terminal.depth - 1)) inner
    generalize (s'.atDepth (s'.terminal.depth - 1)).settle inner = settled at hend hquiet ⊢
    obtain ⟨exit, s'', atEnd⟩ := settled
    simpa [Event.handed_cons, Event.bytes, Event.attempts_cons, Event.attempt?, hquiet] using
      (hbody.trans (hclose.trans hend)).trans (ihnext exit s'')

/-- The run in which each batch is a plain call of its closure. -/
def runInline : Closure ω α → Station ω → Exit α × Station ω × List (Event α)
  | .leave exit, s => (exit, s, [])
  | .perform action next, s =>
    let (answer, s, during) := s.act action
    let (exit, s, events) := (next answer).runInline s
    (exit, s, during ++ .answered answer :: events)
  | .batch body next, s =>
    let (inner, s, during) := body.runInline s
    let (exit, s, events) := (next inner).runInline s
    (exit, s, .entered :: during ++ .left inner :: events)

omit [Sink ω] in
def andThen : Closure ω α → (Exit α → Closure ω α) → Closure ω α
  | .leave exit, f => f exit
  | .perform action next, f => .perform action fun answer ↦ (next answer).andThen f
  | .batch body next, f => .batch body fun inner ↦ (next inner).andThen f

omit [Sink ω] in
def inlined : Closure ω α → Closure ω α
  | .leave exit => .leave exit
  | .perform action next => .perform action fun answer ↦ (next answer).inlined
  | .batch body next => body.inlined.andThen fun inner ↦ (next inner).inlined

theorem run_andThen (c : Closure ω α) (f : Exit α → Closure ω α) (s : Station ω) :
    (c.andThen f).run s =
      let (exit, s, during) := c.run s
      let (exit, s, events) := (f exit).run s
      (exit, s, during ++ events) := by
  induction c generalizing s with
  | leave exit => rfl
  | perform action next ih => simp [andThen, run, ih]
  | batch body next _ ih => simp [andThen, run, ih]

theorem run_inlined (c : Closure ω α) (s : Station ω) :
    c.inlined.run s =
      ((c.runInline s).1, (c.runInline s).2.1, Event.unmarked (c.runInline s).2.2) := by
  induction c generalizing s with
  | leave exit => rfl
  | perform action next ih =>
    simp [inlined, run, ih, runInline, s.unmarked_act, Event.unmarked_cons, Event.isMark]
  | batch body next ihbody ihnext =>
    simp [inlined, run_andThen, ihbody, ihnext, runInline, Event.unmarked_cons, Event.isMark]

theorem passes_runInline (c : Closure ω α) (s : Station ω) :
    s.terminal.Passes (c.runInline s).2.1.terminal (Event.handed (c.runInline s).2.2)
      (Event.attempts (c.runInline s).2.2) := by
  have h := c.inlined.passes_run s
  rwa [run_inlined, Event.handed_unmarked, Event.attempts_unmarked] at h

end Closure

end Terminfo
