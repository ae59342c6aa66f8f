import Terminfo.Proofs.Terminal.Frame
import Terminfo.Proofs.Terminal.Transparency

set_option autoImplicit false

namespace Terminfo

variable {ω α : Type} [Sink ω]

theorem Sink.Answers.eq_of_nil {w w' : ω} (h : Answers w [] w') : w' = w := by
  cases h
  rfl

namespace Terminal.Passes

variable {t t' : Terminal ω} {b : Bytes} {d : Delivery}

theorem of_nil (h : t.Passes t' b []) : t'.pending = t.pending ++ b ∧ t'.out = t.out :=
  ⟨h.bytes.symm, h.answers.eq_of_nil⟩

theorem segment_of_all (h : t.Passes t' b [d]) (hall : t'.pending = []) :
    d.segment = t.pending ++ b := by
  have hbytes := h.bytes
  rw [hall] at hbytes
  simpa using hbytes.symm

end Terminal.Passes

namespace Station

variable {s : Station ω}

def Outputs (s : Station ω) : Action ω → Prop
  | .control name parameters =>
    ∃ b, ((s.terminal.controlString name parameters).run s.board).1 = .ok b
  | .write _ | .flush => True
  | .read _ | .setEnv .. | .resize .. => False

theorem attempts_write (hs : s.terminal.depth = 0) (b : Bytes) :
    (∃ d, Event.attempts (s.write (α := α) b).2.2 = [d]) ∧
      (s.write (α := α) b).2.1.terminal.pending = [] := by
  refine ⟨⟨(Sink.deliver s.terminal.out (s.terminal.pending ++ b)).2.2, ?_⟩, ?_⟩
  · simp only [write, Terminal.write, Terminal.flush, hs, Terminal.deliver, ne_eq,
      not_true_eq_false, if_false]
    rfl
  · simp [write, Terminal.write, Terminal.flush, hs, Terminal.deliver]

theorem attempts_act (hs : s.terminal.depth = 0) {action : Action ω} (h : s.Outputs action) :
    (∃ d, Event.attempts (s.act (α := α) action).2.2 = [d]) ∧
      (s.act (α := α) action).2.1.terminal.pending = [] := by
  cases action with
  | control name parameters =>
    obtain ⟨b, hb⟩ := h
    cases hrun : (s.terminal.controlString name parameters).run s.board with | mk result board
    rw [hrun] at hb
    obtain rfl : result = .ok b := hb
    simp only [act, hrun]
    exact attempts_write (s := { s with board }) hs b
  | write b => exact attempts_write hs b
  | flush => simp [act, flush, Terminal.flush, hs, Terminal.deliver, Event.attempts, Event.attempt?]
  | read r | setEnv name value | resize fd rows cols => exact h.elim

theorem attempts_act_of_not {action : Action ω} (h : ¬ s.Outputs action) :
    Event.attempts (s.act (α := α) action).2.2 = [] := by
  cases action with
  | control name parameters =>
    cases hrun : (s.terminal.controlString name parameters).run s.board with | mk result board
    cases result with
    | error e =>
      simp only [act, hrun]
      rfl
    | ok b => exact absurd ⟨b, by rw [hrun]⟩ h
  | write b | flush => exact absurd trivial h
  | read r | setEnv name value | resize fd rows cols => rfl

theorem settle_of_outermost (hs : s.terminal.depth = 0) {exit : Exit α} (hexit : exit ≠ .aborted) :
    ∃ exit', s.settle exit = (exit', { s with terminal := s.terminal.deliver.2.1 },
        [.delivered s.terminal.deliver.2.2]) ∧
      (∀ e, exit = .failed e → exit' = .failed e) ∧
      (∀ a cause, exit = .returned a → s.terminal.deliver.1 = .error cause →
        exit' = .failed (.io cause)) ∧
      (∀ a, exit = .returned a → s.terminal.deliver.1 = .ok () → exit' = .returned a) := by
  cases exit with
  | aborted => exact absurd rfl hexit
  | failed e =>
    refine ⟨.failed e, by simp [settle, hs], ?_, ?_, ?_⟩ <;> simp
  | returned a =>
    cases hresult : s.terminal.deliver.1 with
    | error cause =>
      refine ⟨.failed (.io cause), by simp [settle, hs, hresult], ?_, ?_, ?_⟩ <;> simp
    | ok u =>
      refine ⟨.returned a, by simp [settle, hs, hresult], ?_, ?_, ?_⟩ <;> simp

end Station

namespace Moment

variable {m : Moment ω α}

/-- The next step is an attempt to bring what is held to the stream: some output with no batch open,
or the end of the outermost batch by a value or an error. -/
def Due (m : Moment ω α) : Prop :=
  match m.closure, m.waiting with
  | .perform action _, [] => m.station.Outputs action
  | .leave exit, [_] => exit ≠ .aborted
  | _, _ => False

structure Steps (m : Moment ω α) (b : Bytes) (attempts : List Delivery) : Prop where
  passes : m.station.terminal.Passes m.step.station.terminal b attempts
  handed : m.step.handed = m.handed ++ b
  attempts : m.step.attempts = m.attempts ++ attempts

theorem steps_perform {action : Action ω} {next : Answer → Closure ω α}
    (h : m.closure = .perform action next) :
    m.Steps (m.station.hands action) (Event.attempts (m.station.act (α := α) action).2.2) := by
  have hstep : m.step = m.perform action next := by simp only [step, h]
  refine ⟨?_, ?_, ?_⟩
  · rw [hstep]
    exact m.station.passes_act action
  · rw [hstep]
    rfl
  · rw [hstep]
    simp [perform, attempts, Event.attempts, Event.attempt?]

theorem steps_enter {body : Closure ω α} {next : Exit α → Closure ω α}
    (h : m.closure = .batch body next) : m.Steps [] [] := by
  have hstep : m.step = m.enter body next := by simp only [step, h]
  refine ⟨?_, ?_, ?_⟩
  · rw [hstep]
    exact .of_eq rfl rfl
  · rw [hstep, List.append_nil]
    rfl
  · rw [hstep]
    simp [enter, attempts, Event.attempt?]

theorem step_leave {exit : Exit α} {next : Exit α → Closure ω α}
    {waiting : List (Exit α → Closure ω α)} (h : m.closure = .leave exit)
    (hwaiting : m.waiting = next :: waiting) : m.step = m.leave exit next waiting := by
  simp only [step, h, hwaiting]

theorem steps_leave {exit : Exit α} {next : Exit α → Closure ω α}
    {waiting : List (Exit α → Closure ω α)} (h : m.closure = .leave exit)
    (hwaiting : m.waiting = next :: waiting) :
    m.Steps [] (Event.attempts
      ((m.station.atDepth (m.station.terminal.depth - 1)).settle exit).2.2) := by
  have hdepth : m.station.terminal.Passes
      (m.station.atDepth (m.station.terminal.depth - 1)).terminal [] [] := .of_eq rfl rfl
  have hstep := step_leave h hwaiting
  refine ⟨?_, ?_, ?_⟩
  · rw [hstep]
    exact hdepth.trans (Station.passes_settle _ exit)
  · rw [hstep, List.append_nil]
    rfl
  · rw [hstep]
    simp [leave, attempts, Event.attempts, Event.attempt?]

theorem steps_end {exit : Exit α} (h : m.closure = .leave exit) (hwaiting : m.waiting = []) :
    m.Steps [] [] := by
  have hstep : m.step = m := by simp only [step, h, hwaiting]
  refine ⟨?_, ?_, ?_⟩
  · rw [hstep]
    exact .of_eq rfl rfl
  · rw [hstep, List.append_nil]
  · rw [hstep, List.append_nil]

theorem steps_of_due (hdepth : m.station.terminal.depth = m.waiting.length) (h : m.Due) :
    ∃ b d, m.Steps b [d] ∧ m.step.held = [] := by
  cases hclosure : m.closure with
  | perform action next =>
    cases hwaiting : m.waiting with
    | nil =>
      have houtputs : m.station.Outputs action := by simpa [Due, hclosure, hwaiting] using h
      have hzero : m.station.terminal.depth = 0 := by simpa [hwaiting] using hdepth
      obtain ⟨⟨d, hd⟩, hheld⟩ := Station.attempts_act (α := α) hzero houtputs
      refine ⟨_, d, hd ▸ steps_perform hclosure, ?_⟩
      have hstep : m.step = m.perform action next := by simp only [step, hclosure]
      rw [hstep]
      exact hheld
    | cons next' waiting => simp [Due, hclosure, hwaiting] at h
  | batch body next => simp [Due, hclosure] at h
  | leave exit =>
    cases hwaiting : m.waiting with
    | nil => simp [Due, hclosure, hwaiting] at h
    | cons next waiting =>
      obtain ⟨hexit, rfl⟩ : exit ≠ .aborted ∧ waiting = [] := by
        cases waiting with
        | nil => simpa [Due, hclosure, hwaiting] using h
        | cons next' waiting => simp [Due, hclosure, hwaiting] at h
      have hzero : (m.station.atDepth (m.station.terminal.depth - 1)).terminal.depth = 0 := by
        simp [Station.atDepth, hdepth, hwaiting]
      have hsteps := steps_leave hclosure hwaiting
      have hstep := step_leave hclosure hwaiting
      obtain ⟨exit', hsettle, -⟩ := Station.settle_of_outermost hzero hexit
      rw [hsettle] at hsteps
      refine ⟨[], _, hsteps, ?_⟩
      rw [hstep]
      simp [leave, hsettle, held, Terminal.deliver]

theorem steps_of_not_due (hdepth : m.station.terminal.depth = m.waiting.length) (h : ¬ m.Due) :
    ∃ b, m.Steps b [] := by
  cases hclosure : m.closure with
  | perform action next =>
    have hquiet : Event.attempts (m.station.act (α := α) action).2.2 = [] := by
      cases hwaiting : m.waiting with
      | nil =>
        have houtputs : ¬ m.station.Outputs action := by simpa [Due, hclosure, hwaiting] using h
        exact Station.attempts_act_of_not houtputs
      | cons next' waiting =>
        have hopen : m.station.terminal.depth ≠ 0 := by simp [hdepth, hwaiting]
        exact (Station.act_held hopen action).1
    exact ⟨_, hquiet ▸ steps_perform hclosure⟩
  | batch body next => exact ⟨[], steps_enter hclosure⟩
  | leave exit =>
    cases hwaiting : m.waiting with
    | nil => exact ⟨[], steps_end hclosure hwaiting⟩
    | cons next waiting =>
      have hsteps := steps_leave hclosure hwaiting
      have hheld : (m.station.atDepth (m.station.terminal.depth - 1)).terminal.depth ≠ 0 ∨
          exit = .aborted := by
        cases waiting with
        | nil => exact .inr (by simpa [Due, hclosure, hwaiting] using h)
        | cons next' waiting => exact .inl (by simp [Station.atDepth, hdepth, hwaiting])
      rw [Station.settle_of_held hheld] at hsteps
      exact ⟨[], hsteps⟩

theorem after_succ (m : Moment ω α) (n : Nat) : m.after (n + 1) = (m.after n).step := m.after_add n 1

theorem held_until_due (hdepth : ∀ n, (m.after n).station.terminal.depth = (m.after n).waiting.length)
    {k : Nat} (h : ∀ j < k, ¬ (m.after j).Due) :
    ∃ later, (m.after k).handed = m.handed ++ later ∧ (m.after k).held = m.held ++ later ∧
      (m.after k).attempts = m.attempts ∧
      (m.after k).station.terminal.out = m.station.terminal.out := by
  induction k with
  | zero => exact ⟨[], by simp [after]⟩
  | succ k ih =>
    obtain ⟨later, hhanded, hheld, hattempts, hout⟩ := ih fun j hj ↦ h j (Nat.lt_succ_of_lt hj)
    obtain ⟨b, hstep⟩ := steps_of_not_due (hdepth k) (h k (Nat.lt_succ_self k))
    obtain ⟨hpending, hsame⟩ := hstep.passes.of_nil
    rw [after_succ]
    refine ⟨later ++ b, ?_, ?_, ?_, hsame.trans hout⟩
    · rw [hstep.handed, hhanded, List.append_assoc]
    · rw [held] at hheld
      rw [held, hpending, hheld, List.append_assoc]
    · rw [hstep.attempts, hattempts, List.append_nil]

theorem attempt_of_due
    (hdepth : ∀ n, (m.after n).station.terminal.depth = (m.after n).waiting.length) {k : Nat}
    (h : ∀ j < k, ¬ (m.after j).Due) (hdue : (m.after k).Due) :
    ∃ later d, (m.after (k + 1)).attempts = m.attempts ++ [d] ∧ d.segment = m.held ++ later ∧
      (m.after (k + 1)).handed = m.handed ++ later ∧ (m.after (k + 1)).held = [] := by
  obtain ⟨later, hhanded, hheld, hattempts, -⟩ := held_until_due hdepth h
  obtain ⟨b, d, hstep, hnone⟩ := steps_of_due (hdepth k) hdue
  rw [held] at hheld
  rw [after_succ]
  refine ⟨later ++ b, d, ?_, ?_, ?_, hnone⟩
  · rw [hstep.attempts, hattempts]
  · rw [hstep.passes.segment_of_all hnone, hheld, List.append_assoc]
  · rw [hstep.handed, hhanded, List.append_assoc]

/-- An abort ends batch after batch, up to the closure that goes on, and nothing else happens. -/
theorem after_abort {passing waiting : List (Exit α → Closure ω α)} {next : Exit α → Closure ω α}
    (hclosure : m.closure = .leave .aborted) (hwaiting : m.waiting = passing ++ next :: waiting)
    (hpassing : ∀ f ∈ passing, f .aborted = .leave .aborted)
    (hdepth : m.station.terminal.depth = m.waiting.length) :
    m.after (passing.length + 1) =
      { m with
        closure := next .aborted
        waiting
        station := m.station.atDepth waiting.length
        events := m.events ++ List.replicate (passing.length + 1) (.left .aborted) } := by
  induction passing generalizing m with
  | nil =>
    have hlower : m.station.terminal.depth - 1 = waiting.length := by simp [hdepth, hwaiting]
    have hstep : m.after 1 = m.leave .aborted next waiting := step_leave hclosure hwaiting
    rw [List.length_nil, hstep]
    simp [leave, hlower, Station.settle_of_held]
  | cons f passing ih =>
    obtain ⟨hf, hrest⟩ := List.forall_mem_cons.1 hpassing
    have hlower : m.station.terminal.depth - 1 = (passing ++ next :: waiting).length := by
      simp [hdepth, hwaiting]
    have hstep : m.step =
        { m with
          closure := .leave .aborted
          waiting := passing ++ next :: waiting
          station := m.station.atDepth (passing ++ next :: waiting).length
          events := m.events ++ [.left .aborted] } := by
      rw [step_leave hclosure hwaiting]
      simp [leave, hf, hlower, Station.settle_of_held]
    rw [List.length_cons, after, hstep, ih rfl rfl hrest rfl]
    simp [Station.atDepth, List.replicate_succ]

end Moment

namespace Closure

variable (body : Closure ω α) (s : Station ω)

def inside : Exit α × Station ω × List (Event α) :=
  body.run (s.atDepth (s.terminal.depth + 1))

def batched : Exit α × Station ω × List (Event α) := (batch body .leave).run s

/-- How a batch ends. While its closure runs nothing reaches the stream. An inner batch passes on the
exit of its closure and so does one whose closure is aborted, and then everything stays held. The
outermost one delivers once whatever was held, and its exit is an error of the closure, or else one
of the delivery, or else the value. -/
structure Ends : Prop where
  quiet : Event.attempts (body.inside s).2.2 = [] ∧
    (body.inside s).2.1.terminal.out = s.terminal.out
  held : (body.inside s).2.1.terminal.pending =
    s.terminal.pending ++ Event.handed (body.inside s).2.2
  depth : (body.inside s).2.1.terminal.depth = s.terminal.depth + 1 ∧
    (body.batched s).2.1.terminal.depth = s.terminal.depth
  passed : s.terminal.depth ≠ 0 ∨ (body.inside s).1 = .aborted →
    body.batched s =
      ((body.inside s).1, (body.inside s).2.1.atDepth s.terminal.depth,
        .entered :: (body.inside s).2.2 ++ [.left (body.inside s).1])
  delivered : s.terminal.depth = 0 → (body.inside s).1 ≠ .aborted →
    let delivery := Sink.deliver s.terminal.out (body.inside s).2.1.terminal.pending
    delivery.2.2.segment = (body.inside s).2.1.terminal.pending ∧
      (body.batched s).2.2 = .entered :: (body.inside s).2.2 ++
        [.delivered delivery.2.2, .left (body.batched s).1] ∧
      (body.batched s).2.1.terminal.out = delivery.2.1 ∧
      (body.batched s).2.1.terminal.pending = [] ∧
      (∀ e, (body.inside s).1 = .failed e → (body.batched s).1 = .failed e) ∧
      (∀ a cause, (body.inside s).1 = .returned a → delivery.1 = .error cause →
        (body.batched s).1 = .failed (.io cause)) ∧
      (∀ a, (body.inside s).1 = .returned a → delivery.1 = .ok () →
        (body.batched s).1 = .returned a)

theorem batched_eq : body.batched s =
    let ended := (body.inside s).2.1
    let settled := (ended.atDepth (ended.terminal.depth - 1)).settle (body.inside s).1
    (settled.1, settled.2.1, .entered :: (body.inside s).2.2 ++ settled.2.2 ++ [.left settled.1]) :=
  rfl

theorem ends : body.Ends s := by
  have hopen : (s.atDepth (s.terminal.depth + 1)).terminal.depth ≠ 0 := Nat.succ_ne_zero _
  obtain ⟨hquiet, hout, hdepth⟩ := body.run_held hopen
  have hheld := body.passes_run (s.atDepth (s.terminal.depth + 1))
  rw [hquiet] at hheld
  have hclosed : (body.inside s).2.1.terminal.depth - 1 = s.terminal.depth := by
    change (body.run (s.atDepth (s.terminal.depth + 1))).2.1.terminal.depth - 1 = _
    rw [hdepth]
    rfl
  have hkeeps := ((body.inside s).2.1.atDepth s.terminal.depth).keeps_settle (body.inside s).1
  have hbatched := body.batched_eq s
  simp only [hclosed] at hbatched
  refine ⟨⟨hquiet, hout⟩, hheld.of_nil.1, ⟨hdepth, ?_⟩, ?_, ?_⟩
  · rw [hbatched]
    exact hkeeps.depth
  · intro h
    have hsettle := Station.settle_of_held (s := (body.inside s).2.1.atDepth s.terminal.depth) h
    rw [hbatched, hsettle]
    simp
  · intro hzero hexit
    obtain ⟨exit', hsettle, hfailed, hrefused, hreturned⟩ := Station.settle_of_outermost
      (s := (body.inside s).2.1.atDepth s.terminal.depth) hzero hexit
    have hstream : (body.inside s).2.1.terminal.out = s.terminal.out := hout
    rw [hbatched, hsettle]
    simp only [Terminal.deliver, Station.atDepth, hstream] at hrefused hreturned ⊢
    exact ⟨Sink.segment_deliver _ _, by simp, trivial, trivial, hfailed, hrefused, hreturned⟩

end Closure

namespace Moment

variable {m : Moment ω α}

theorem after_batch {body : Closure ω α} {next : Exit α → Closure ω α}
    (h : m.closure = .batch body next) : ∃ k handed, m.after k =
      { m with
        closure := next (body.batched m.station).1
        station := (body.batched m.station).2.1
        handed
        events := m.events ++ (body.batched m.station).2.2 } := by
  have henter : m.step = m.enter body next := by simp only [step, h]
  obtain ⟨n, handed, hbody⟩ := (m.enter body next).after_run
  refine ⟨n + 1 + 1, handed, ?_⟩
  rw [after, after_succ, henter, hbody, step_leave rfl rfl, body.batched_eq]
  simp [leave, enter, Closure.inside]

end Moment

/-- How batches end, at any moment of any program. There are as many batches open as closures of
batches are running, and each of them ends as it should. An abort ends batch after batch until some
closure goes on, and does nothing else. What is held stays held in order until the next output with
no batch open or the next end of the outermost batch by a value or an error; this one attempts to
deliver it, before everything that has come later. -/
theorem Terminal.batches_end (host : Host) (config : Config) (out : ω) (board : Switchboard)
    (t : Terminal ω) (ht : ((establish host config out).run board).1 = .ok t) (h : Host)
    (b : Switchboard) (program : Closure ω α) (n : Nat) :
    let m := ({ closure := program, station := ⟨h, b, t⟩ } : Moment ω α).after n
    m.station.terminal.depth = m.waiting.length ∧
      (∀ body next, m.closure = .batch body next → body.Ends m.station ∧
        ∃ k handed, m.after k =
          { m with
            closure := next (body.batched m.station).1
            station := (body.batched m.station).2.1
            handed
            events := m.events ++ (body.batched m.station).2.2 }) ∧
      (∀ passing next waiting, m.closure = .leave .aborted →
        m.waiting = passing ++ next :: waiting →
        (∀ f ∈ passing, f .aborted = .leave .aborted) →
          m.after (passing.length + 1) =
            { m with
              closure := next .aborted
              waiting
              station := m.station.atDepth waiting.length
              events := m.events ++ List.replicate (passing.length + 1) (.left .aborted) }) ∧
      ∀ k, (∀ j < k, ¬ (m.after j).Due) →
        (∃ later, (m.after k).handed = m.handed ++ later ∧ (m.after k).held = m.held ++ later ∧
          (m.after k).attempts = m.attempts ∧
          (m.after k).station.terminal.out = m.station.terminal.out) ∧
        ((m.after k).Due → ∃ later d, (m.after (k + 1)).attempts = m.attempts ++ [d] ∧
          d.segment = m.held ++ later ∧ (m.after (k + 1)).handed = m.handed ++ later ∧
          (m.after (k + 1)).held = []) := by
  intro m
  obtain ⟨-, -, hzero⟩ := fresh_of_establish ht
  have hdepth : ∀ k, (m.after k).station.terminal.depth = (m.after k).waiting.length := by
    intro k
    have hnested := Moment.nested_after program ⟨h, b, t⟩ (n + k)
    rw [Moment.after_add] at hnested
    simpa [hzero] using hnested.depth
  refine ⟨hdepth 0, ?_, ?_, ?_⟩
  · intro body next hclosure
    exact ⟨body.ends m.station, Moment.after_batch hclosure⟩
  · intro passing next waiting hclosure hwaiting hpassing
    exact Moment.after_abort hclosure hwaiting hpassing (hdepth 0)
  · intro k hquiet
    exact ⟨Moment.held_until_due hdepth hquiet, Moment.attempt_of_due hdepth hquiet⟩

theorem Terminal.batches_end_caught :
    let host : Host := { entries := [("x", some {})] }
    let out : Rationed := { fd := 1, room := some 0 }
    let board := Switchboard.start .ascending
    let t : Terminal Rationed :=
      { session := { context := some 1 }, out, config := { term := some "x" }, term := "x" }
    let inner : Closure Rationed Unit := .perform (.write [1, 2]) fun _ ↦ .leave .aborted
    let outer : Closure Rationed Unit :=
      .batch inner fun _ ↦ .perform (.write [3]) fun _ ↦ .leave (.returned ())
    let first : Moment Rationed Unit :=
      { closure := .batch outer .leave, station := ⟨host, board, t⟩ }
    let m := first.after 3
    ((establish host { term := some "x" } out).run board).1 = .ok t ∧
      (outer.batched first.station).1 = .failed (.io (.other "sink full")) ∧
      m.closure = .leave .aborted ∧ m.held = [1, 2] ∧ m.station.terminal.depth = 2 ∧
      (m.after 1).attempts = [] ∧
      ∃ later d, (m.after 3).attempts = [d] ∧ d.segment = [1, 2] ++ later := by
  intro host out board t inner outer first m
  have ht : ((establish host { term := some "x" } out).run board).1 = .ok t := rfl
  obtain ⟨-, hends, -, -⟩ :=
    batches_end host _ out board t ht host board (.batch outer .leave) 0
  obtain ⟨hdepth, -, haborts, hdue⟩ :=
    batches_end host _ out board t ht host board (.batch outer .leave) 3
  have hexit : Exit.returned () ≠ .aborted := by simp
  obtain ⟨-, -, -, -, -, hrefused, -⟩ := (hends outer .leave rfl).1.delivered rfl hexit
  have hrefusal : (Sink.deliver out [1, 2, 3]).1 = .error (.other "sink full") := by
    rw [Sink.deliver, Sink.writeAll]
    rfl
  have hunwound := haborts [] _ _ rfl rfl (by simp)
  have hquiet : ∀ j < 2, ¬ (m.after j).Due := by
    intro j hj
    obtain rfl | rfl : j = 0 ∨ j = 1 := by omega
    · exact id
    · exact id
  obtain ⟨later, d, hattempts, hsegment, -, -⟩ := (hdue 2 hquiet).2 hexit
  refine ⟨ht, hrefused () _ rfl hrefusal, rfl, rfl, hdepth, ?_, later, d, hattempts, hsegment⟩
  exact congrArg Moment.attempts hunwound

end Terminfo
