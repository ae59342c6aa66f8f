import Terminfo.Proofs.Terminal.Delivery

set_option autoImplicit false

namespace Terminfo

variable {ω α : Type}

structure Terminal.Keeps (t t' : Terminal ω) : Prop where
  session : t'.session = t.session
  config : t'.config = t.config
  term : t'.term = t.term
  depth : t'.depth = t.depth

variable [Sink ω]

theorem Terminal.keeps_flush (t : Terminal ω) : t.Keeps t.flush.2.1 := by
  unfold flush
  split <;> exact ⟨rfl, rfl, rfl, rfl⟩

theorem Terminal.keeps_write (t : Terminal ω) (b : Bytes) : t.Keeps (t.write b).2.1 := by
  have h := keeps_flush { t with pending := t.pending ++ b }
  exact ⟨h.session, h.config, h.term, h.depth⟩

namespace Station

variable (s : Station ω)

theorem keeps_act (action : Action ω) :
    s.terminal.Keeps (s.act (α := α) action).2.1.terminal := by
  cases action with
  | control name parameters =>
    cases hrun : (s.terminal.controlString name parameters).run s.board with | mk result board
    cases result with
    | error e =>
      simp only [act, hrun]
      exact ⟨rfl, rfl, rfl, rfl⟩
    | ok b =>
      simp only [act, hrun]
      exact s.terminal.keeps_write b
  | write b => exact s.terminal.keeps_write b
  | flush => exact s.terminal.keeps_flush
  | read r | setEnv name value | resize fd rows cols => exact ⟨rfl, rfl, rfl, rfl⟩

theorem keeps_settle (exit : Exit α) : s.terminal.Keeps (s.settle exit).2.1.terminal := by
  rcases s.settle_cases exit with h | ⟨exit', h⟩
  · rw [h]
    exact ⟨rfl, rfl, rfl, rfl⟩
  · rw [h]
    exact ⟨rfl, rfl, rfl, rfl⟩

end Station

namespace Moment

variable {m : Moment ω α} {t : Terminal ω}

/-- The terminal is the given one but for its output, and one batch deeper for each closure of a
batch that has not come to its end. -/
structure Nested (m : Moment ω α) (t : Terminal ω) : Prop where
  session : m.station.terminal.session = t.session
  config : m.station.terminal.config = t.config
  term : m.station.terminal.term = t.term
  depth : m.station.terminal.depth = t.depth + m.waiting.length

theorem Nested.perform (h : m.Nested t) (action : Action ω) (next : Answer → Closure ω α) :
    (m.perform action next).Nested t := by
  have hkeeps := m.station.keeps_act (α := α) action
  exact ⟨hkeeps.session.trans h.session, hkeeps.config.trans h.config, hkeeps.term.trans h.term,
    hkeeps.depth.trans h.depth⟩

omit [Sink ω] in
theorem Nested.enter (h : m.Nested t) (body : Closure ω α) (next : Exit α → Closure ω α) :
    (m.enter body next).Nested t where
  session := h.session
  config := h.config
  term := h.term
  depth := congrArg (· + 1) h.depth

theorem Nested.leave (h : m.Nested t) (exit : Exit α) {next : Exit α → Closure ω α}
    {waiting : List (Exit α → Closure ω α)} (hwaiting : m.waiting = next :: waiting) :
    (m.leave exit next waiting).Nested t := by
  have hkeeps := (m.station.atDepth (m.station.terminal.depth - 1)).keeps_settle exit
  refine ⟨hkeeps.session.trans h.session, hkeeps.config.trans h.config, hkeeps.term.trans h.term,
    hkeeps.depth.trans ?_⟩
  have hdepth := h.depth
  rw [hwaiting, List.length_cons] at hdepth
  change m.station.terminal.depth - 1 = t.depth + waiting.length
  omega

theorem Nested.step (h : m.Nested t) : m.step.Nested t := by
  unfold Moment.step
  split
  · exact h.perform _ _
  · exact h.enter _ _
  · exact h.leave _ ‹_›
  · exact h

theorem Nested.after (h : m.Nested t) (n : Nat) : (m.after n).Nested t := by
  induction n generalizing m with
  | zero => exact h
  | succ n ih => exact ih h.step

theorem nested_after (program : Closure ω α) (s : Station ω) (n : Nat) :
    (({ closure := program, station := s } : Moment ω α).after n).Nested s.terminal :=
  Nested.after ⟨rfl, rfl, rfl, rfl⟩ n

end Moment

end Terminfo
