import Terminfo.Terminal.Closure

set_option autoImplicit false

namespace Terminfo

variable {ω α : Type} [Sink ω]

def Station.hands (s : Station ω) : Action ω → Bytes
  | .control name parameters =>
    match ((s.terminal.controlString name parameters).run s.board).1 with
    | .ok b => b
    | .error _ => []
  | .write b => b
  | .flush | .read _ | .setEnv .. | .resize .. => []

def Event.attempt? : Event α → Option Delivery
  | .delivered d => some d
  | _ => none

/-- A program that has been carried out in part. -/
structure Moment (ω α : Type) where
  closure : Closure ω α
  /-- What comes after each open batch, the innermost first. -/
  waiting : List (Exit α → Closure ω α) := []
  station : Station ω
  handed : Bytes := []
  events : List (Event α) := []

namespace Moment

def attempts (m : Moment ω α) : List Delivery := m.events.filterMap Event.attempt?

omit [Sink ω] in
def held (m : Moment ω α) : Bytes := m.station.terminal.pending

def perform (m : Moment ω α) (action : Action ω) (next : Answer → Closure ω α) : Moment ω α :=
  let (answer, station, during) := m.station.act action
  { m with
    closure := next answer
    station
    handed := m.handed ++ m.station.hands action
    events := m.events ++ (during ++ [.answered answer]) }

def enter (m : Moment ω α) (body : Closure ω α) (next : Exit α → Closure ω α) : Moment ω α :=
  { m with
    closure := body
    waiting := next :: m.waiting
    station := m.station.atDepth (m.station.terminal.depth + 1)
    events := m.events ++ [.entered] }

def leave (m : Moment ω α) (exit : Exit α) (next : Exit α → Closure ω α)
    (waiting : List (Exit α → Closure ω α)) : Moment ω α :=
  let (exit, station, atEnd) := (m.station.atDepth (m.station.terminal.depth - 1)).settle exit
  { m with
    closure := next exit
    waiting
    station
    events := m.events ++ (atEnd ++ [.left exit]) }

def step (m : Moment ω α) : Moment ω α :=
  match m.closure, m.waiting with
  | .perform action next, _ => m.perform action next
  | .batch body next, _ => m.enter body next
  | .leave exit, next :: waiting => m.leave exit next waiting
  | .leave _, [] => m

def after (m : Moment ω α) : Nat → Moment ω α
  | 0 => m
  | n + 1 => m.step.after n

theorem after_add (m : Moment ω α) (n k : Nat) : m.after (n + k) = (m.after n).after k := by
  induction n generalizing m with
  | zero => rw [Nat.zero_add, after]
  | succ n ih => rw [Nat.add_right_comm, after, ih, after]

theorem after_run (m : Moment ω α) : ∃ n handed, m.after n =
    { m with
      closure := .leave (m.closure.run m.station).1
      station := (m.closure.run m.station).2.1
      handed
      events := m.events ++ (m.closure.run m.station).2.2 } := by
  obtain ⟨closure, waiting, station, handed, events⟩ := m
  -- What waits is arbitrary, as the body of a batch runs before one continuation more.
  induction closure generalizing waiting station handed events with
  | leave exit => exact ⟨0, handed, by simp [after, Closure.run]⟩
  | perform action next ih =>
    obtain ⟨n, handed', h⟩ := ih (station.act action).1 waiting (station.act action).2.1
      (handed ++ station.hands action)
      (events ++ ((station.act action).2.2 ++ [.answered (station.act action).1]))
    refine ⟨n + 1, handed', h.trans ?_⟩
    simp [Closure.run]
  | batch body next ihbody ihnext =>
    obtain ⟨n, handed', hbody⟩ := ihbody (next :: waiting)
      (station.atDepth (station.terminal.depth + 1)) handed (events ++ [.entered])
    cases hrun : body.run (station.atDepth (station.terminal.depth + 1)) with | mk inner rest
    obtain ⟨s, during⟩ := rest
    cases hsettle : (s.atDepth (s.terminal.depth - 1)).settle inner with | mk exit rest
    obtain ⟨s', atEnd⟩ := rest
    obtain ⟨k, handed'', hnext⟩ := ihnext exit waiting s' handed'
      (events ++ [.entered] ++ during ++ (atEnd ++ [.left exit]))
    refine ⟨n + (k + 1) + 1, handed'', ?_⟩
    rw [hrun] at hbody
    rw [after, after_add]
    refine (congrArg (after · (k + 1)) hbody).trans ?_
    simp only [after, step, leave, hsettle]
    refine hnext.trans ?_
    simp [Closure.run, hrun, hsettle]

end Moment

end Terminfo
