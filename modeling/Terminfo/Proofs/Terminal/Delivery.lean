import Mathlib.Data.List.Basic
import Terminfo.Proofs.Terminal.Attempt
import Terminfo.Proofs.Terminal.Moment
import Terminfo.Sink.Rationed

set_option autoImplicit false

namespace Terminfo

variable {ω α : Type} [Sink ω]

/-- The terminal takes bytes in, and makes attempts to bring to its stream what it held and them. -/
structure Terminal.Passes (t t' : Terminal ω) (b : Bytes) (attempts : List Delivery) : Prop where
  bytes : t.pending ++ b = attempts.flatMap Delivery.segment ++ t'.pending
  attempt : ∀ d ∈ attempts, Attempt d.segment d.calls
  answers : Sink.Answers t.out (attempts.flatMap Delivery.calls) t'.out

namespace Terminal

variable {t t' t'' : Terminal ω} {b : Bytes} {attempts : List Delivery}

theorem Passes.of_eq (hpending : t'.pending = t.pending) (hout : t'.out = t.out) :
    t.Passes t' [] [] where
  bytes := by simp [hpending]
  attempt := by simp
  answers := by
    rw [hout]
    exact .nil _

theorem Passes.trans {b' : Bytes} {attempts' : List Delivery} (h : t.Passes t' b attempts)
    (h' : t'.Passes t'' b' attempts') : t.Passes t'' (b ++ b') (attempts ++ attempts') where
  bytes := by
    rw [← List.append_assoc, h.bytes, List.append_assoc, h'.bytes, List.flatMap_append,
      List.append_assoc]
  attempt := by
    intro d hd
    rcases List.mem_append.1 hd with hd | hd
    · exact h.attempt d hd
    · exact h'.attempt d hd
  answers := by
    rw [List.flatMap_append]
    exact h.answers.append h'.answers

theorem passes_deliver (t : Terminal ω) : t.Passes t.deliver.2.1 [] [t.deliver.2.2] where
  bytes := by simp [deliver, Sink.segment_deliver]
  attempt := by simpa [deliver, Sink.segment_deliver] using Sink.attempt_deliver t.out t.pending
  answers := by simpa [deliver] using Sink.answers_deliver t.out t.pending

theorem passes_flush (t : Terminal ω) : t.Passes t.flush.2.1 [] t.flush.2.2.toList := by
  unfold flush
  split
  · exact .of_eq rfl rfl
  · exact t.passes_deliver

theorem passes_write (t : Terminal ω) (b : Bytes) :
    t.Passes (t.write b).2.1 b (t.write b).2.2.toList := by
  have hjoin : t.Passes { t with pending := t.pending ++ b } b [] :=
    ⟨by simp, by simp, .nil _⟩
  have h := hjoin.trans (passes_flush { t with pending := t.pending ++ b })
  rw [List.append_nil, List.nil_append] at h
  exact h

end Terminal

namespace Station

variable (s : Station ω)

theorem attempts_delivered (d : Option Delivery) :
    (d.toList.map (Event.delivered (α := α))).filterMap Event.attempt? = d.toList := by
  cases d <;> rfl

theorem passes_flush : s.terminal.Passes (s.flush (α := α)).2.1.terminal []
    ((s.flush (α := α)).2.2.filterMap Event.attempt?) := by
  have h := s.terminal.passes_flush
  rw [← attempts_delivered (α := α)] at h
  exact h

theorem passes_write (b : Bytes) : s.terminal.Passes (s.write (α := α) b).2.1.terminal b
    ((s.write (α := α) b).2.2.filterMap Event.attempt?) := by
  have h := s.terminal.passes_write b
  rw [← attempts_delivered (α := α)] at h
  exact h

theorem passes_act (action : Action ω) : s.terminal.Passes (s.act (α := α) action).2.1.terminal
    (s.hands action) ((s.act (α := α) action).2.2.filterMap Event.attempt?) := by
  cases action with
  | control name parameters =>
    cases hrun : (s.terminal.controlString name parameters).run s.board with | mk result board
    cases result with
    | error e =>
      simp only [act, hands, hrun]
      exact .of_eq rfl rfl
    | ok b =>
      simp only [act, hands, hrun]
      exact passes_write { s with board } b
  | write b => exact s.passes_write b
  | flush => exact s.passes_flush
  | read r => exact .of_eq rfl rfl
  | setEnv name value => exact .of_eq rfl rfl
  | resize fd rows cols => exact .of_eq rfl rfl

theorem settle_cases (exit : Exit α) : s.settle exit = (exit, s, []) ∨
    ∃ exit', s.settle exit = (exit', { s with terminal := s.terminal.deliver.2.1 },
      [.delivered s.terminal.deliver.2.2]) := by
  by_cases hdepth : s.terminal.depth = 0
  · cases exit with
    | aborted => exact .inl (by simp [settle])
    | returned a | failed e => exact .inr ⟨_, by simp [settle, hdepth]; rfl⟩
  · exact .inl (by simp [settle, hdepth])

theorem passes_settle (exit : Exit α) : s.terminal.Passes (s.settle exit).2.1.terminal []
    ((s.settle exit).2.2.filterMap Event.attempt?) := by
  rcases s.settle_cases exit with h | ⟨exit', h⟩
  · rw [h]
    exact .of_eq rfl rfl
  · rw [h]
    exact s.terminal.passes_deliver

end Station

namespace Moment

variable {m : Moment ω α} {out : ω}

/-- All bytes that were added to the output since the stream was as given have either been part of
an attempt, in order, or are held. -/
structure Balanced (m : Moment ω α) (out : ω) : Prop where
  bytes : m.handed = m.attempts.flatMap Delivery.segment ++ m.held
  attempt : ∀ d ∈ m.attempts, Attempt d.segment d.calls
  answers : Sink.Answers out (m.attempts.flatMap Delivery.calls) m.station.terminal.out

theorem Balanced.advance {m' : Moment ω α} {b : Bytes} {attempts : List Delivery}
    (h : m.Balanced out) (hpasses : m.station.terminal.Passes m'.station.terminal b attempts)
    (hhanded : m'.handed = m.handed ++ b) (hattempts : m'.attempts = m.attempts ++ attempts) :
    m'.Balanced out where
  bytes := by
    rw [hhanded, hattempts, h.bytes, List.append_assoc, held, hpasses.bytes, List.flatMap_append,
      List.append_assoc, held]
  attempt := by
    intro d hd
    rw [hattempts] at hd
    rcases List.mem_append.1 hd with hd | hd
    · exact h.attempt d hd
    · exact hpasses.attempt d hd
  answers := by
    rw [hattempts, List.flatMap_append]
    exact h.answers.append hpasses.answers

theorem Balanced.perform (h : m.Balanced out) (action : Action ω) (next : Answer → Closure ω α) :
    (m.perform action next).Balanced out := by
  refine h.advance (m.station.passes_act action) rfl ?_
  simp [Moment.perform, attempts, Event.attempt?]

theorem Balanced.enter (h : m.Balanced out) (body : Closure ω α) (next : Exit α → Closure ω α) :
    (m.enter body next).Balanced out := by
  have hsame : m.station.terminal.Passes (m.enter body next).station.terminal [] [] :=
    .of_eq rfl rfl
  refine h.advance hsame ?_ ?_
  · simp [Moment.enter]
  · simp [Moment.enter, attempts, Event.attempt?]

theorem Balanced.leave (h : m.Balanced out) (exit : Exit α) (next : Exit α → Closure ω α)
    (waiting : List (Exit α → Closure ω α)) : (m.leave exit next waiting).Balanced out := by
  have hdepth : m.station.terminal.Passes
      (m.station.atDepth (m.station.terminal.depth - 1)).terminal [] [] := .of_eq rfl rfl
  refine h.advance (hdepth.trans (Station.passes_settle _ exit)) ?_ ?_
  · simp [Moment.leave]
  · simp [Moment.leave, attempts, Event.attempt?]

theorem Balanced.step (h : m.Balanced out) : m.step.Balanced out := by
  unfold Moment.step
  split
  · exact h.perform _ _
  · exact h.enter _ _
  · exact h.leave _ _ _
  · exact h

theorem Balanced.after (h : m.Balanced out) (n : Nat) : (m.after n).Balanced out := by
  induction n generalizing m with
  | zero => exact h
  | succ n ih => exact ih h.step

theorem Balanced.received_sublist (h : m.Balanced out) :
    (m.attempts.flatMap Delivery.received).Sublist m.handed := by
  rw [h.bytes]
  refine List.Sublist.trans ?_ (List.sublist_append_left _ _)
  have hattempt := h.attempt
  generalize m.attempts = attempts at hattempt
  induction attempts with
  | nil => exact .refl _
  | cons d attempts ih =>
    obtain ⟨hd, hrest⟩ := List.forall_mem_cons.1 hattempt
    rw [List.flatMap_cons, List.flatMap_cons]
    exact hd.received.sublist.append (ih hrest)

theorem Balanced.received_eq (h : m.Balanced out)
    (hwhole : ∀ d ∈ m.attempts, ∀ c ∈ d.calls, ¬ c.stops) :
    m.attempts.flatMap Delivery.received ++ m.held = m.handed := by
  have hsegments : m.attempts.flatMap Delivery.received = m.attempts.flatMap Delivery.segment := by
    refine List.flatMap_congr ?_
    intro d hd
    rcases (h.attempt d hd).whole with hall | ⟨c, hc, hstops⟩
    · exact hall
    · exact absurd hstops (hwhole d hd c hc)
  rw [hsegments, h.bytes]

theorem step_of_failed_control {name : String} {parameters : List Int64}
    {next : Answer → Closure ω α} {e : Error}
    (hclosure : m.closure = .perform (.control name parameters) next)
    (he : ((m.station.terminal.controlString name parameters).run m.station.board).1 = .error e) :
    m.step.handed = m.handed ∧ m.step.attempts = m.attempts ∧
      m.step.station.terminal = m.station.terminal := by
  cases hrun : (m.station.terminal.controlString name parameters).run m.station.board
    with | mk result board
  rw [hrun] at he
  subst he
  simp [step, hclosure, perform, Station.act, Station.hands, hrun, attempts, Event.attempt?]

end Moment

theorem Terminal.fresh_of_establish {host : Host} {config : Config} {out : ω} {board : Switchboard}
    {t : Terminal ω} (h : ((establish host config out).run board).1 = .ok t) :
    t.out = out ∧ t.pending = [] ∧ t.depth = 0 := by
  obtain ⟨-, session, -, rfl⟩ := establish_run_eq_ok_iff.1 (Prod.ext h rfl)
  exact ⟨rfl, rfl, rfl⟩

/-- Whatever a program does with a terminal and whatever the stream does, at any moment the bytes
that were handed over are the segments of the attempts so far and then what is held. The stream has
got the first bytes of each segment, and all of them unless a write of this attempt stopped it. -/
theorem Terminal.delivers_in_order (host : Host) (config : Config) (out : ω) (board : Switchboard)
    (t : Terminal ω) (ht : ((establish host config out).run board).1 = .ok t) (h : Host)
    (b : Switchboard) (program : Closure ω α) (n : Nat) :
    let first : Moment ω α := { closure := program, station := ⟨h, b, t⟩ }
    let m := first.after n
    m.handed = m.attempts.flatMap Delivery.segment ++ m.held ∧
      Sink.Answers out (m.attempts.flatMap Delivery.calls) m.station.terminal.out ∧
      (∀ d ∈ m.attempts,
        (∀ made, made <+: d.calls → made.flatMap Call.received <+: d.segment) ∧
          (d.received = d.segment ∨ ∃ c ∈ d.calls, c.stops)) ∧
      (m.attempts.flatMap Delivery.received).Sublist m.handed ∧
      ((∀ d ∈ m.attempts, ∀ c ∈ d.calls, ¬ c.stops) →
        m.attempts.flatMap Delivery.received ++ m.held = m.handed) ∧
      (∀ name parameters next e, m.closure = .perform (.control name parameters) next →
        ((m.station.terminal.controlString name parameters).run m.station.board).1 = .error e →
          m.step.handed = m.handed ∧ m.step.attempts = m.attempts ∧
            m.step.station.terminal = m.station.terminal) ∧
      ∃ k handed, first.after k =
        { closure := .leave (program.run ⟨h, b, t⟩).1
          station := (program.run ⟨h, b, t⟩).2.1
          handed
          events := (program.run ⟨h, b, t⟩).2.2 } := by
  intro first m
  obtain ⟨rfl, hpending, -⟩ := fresh_of_establish ht
  have hfirst : first.Balanced t.out :=
    ⟨by simp [first, Moment.attempts, Moment.held, hpending], by simp [first, Moment.attempts],
      .nil _⟩
  have hm : m.Balanced t.out := hfirst.after n
  exact ⟨hm.bytes, hm.answers,
    fun d hd ↦ ⟨fun made hmade ↦ (hm.attempt d hd).received_of_made hmade, (hm.attempt d hd).whole⟩,
    hm.received_sublist, hm.received_eq,
    fun _ _ _ _ hclosure he ↦ Moment.step_of_failed_control hclosure he, first.after_run⟩

theorem Terminal.delivers_in_order_rationed :
    let host : Host := { entries := [("x", some {})] }
    let out : Rationed := { fd := 1, chunk := some 2, interrupts := 1 }
    let board := Switchboard.start .ascending
    let t : Terminal Rationed :=
      { session := { context := some 1 }, out, config := { term := some "x" }, term := "x" }
    let program : Closure Rationed Unit :=
      .batch (.perform (.write [1, 2, 3]) fun _ ↦ .leave .aborted) fun _ ↦
        .perform (.write [4]) fun _ ↦ .leave (.returned ())
    let m := ({ closure := program, station := ⟨host, board, t⟩ } : Moment Rationed Unit).after 4
    ((establish host { term := some "x" } out).run board).1 = .ok t ∧ m.handed = [1, 2, 3, 4] ∧
      m.handed = m.attempts.flatMap Delivery.segment ++ m.held := by
  intro host out board t program m
  have ht : ((establish host { term := some "x" } out).run board).1 = .ok t := rfl
  exact ⟨ht, rfl, (delivers_in_order host _ out board t ht host board program 4).1⟩

end Terminfo
