import Terminfo.Proofs.Terminal.Inline
import Terminfo.Proofs.Terminal.Reliable

set_option autoImplicit false

namespace Terminfo

variable {ω α : Type}

def Reading.Blind : Reading ω → Prop
  | .inspect _ => False
  | _ => True

def Action.Blind : Action ω → Prop
  | .read r => r.Blind
  | _ => True

def Closure.Blind : Closure ω α → Prop
  | .leave _ => True
  | .perform action next => action.Blind ∧ ∀ answer, (next answer).Blind
  | .batch body next => body.Blind ∧ ∀ exit, (next exit).Blind

def Closure.Step.Blind : Closure.Step ω α → Prop
  | .act action => action.Blind
  | .batch body => body.Blind

theorem Closure.blind_ofSteps (strict : Bool) (last : Exit α) {steps : List (Closure.Step ω α)}
    (h : ∀ step ∈ steps, step.Blind) : (ofSteps strict last steps).Blind := by
  induction steps with
  | nil => trivial
  | cons step steps ih =>
    obtain ⟨hstep, hsteps⟩ := List.forall_mem_cons.1 h
    cases step with
    | act action =>
      refine ⟨hstep, fun answer ↦ ?_⟩
      dsimp only
      split
      · trivial
      · exact ih hsteps
    | batch body =>
      refine ⟨hstep, fun exit ↦ ?_⟩
      dsimp only
      split
      · trivial
      · trivial
      · exact ih hsteps

namespace Event

def besidesDeliveries (events : List (Event α)) : List (Event α) :=
  events.filter fun e ↦ e.attempt?.isNone

theorem besidesDeliveries_cons (e : Event α) (events : List (Event α)) :
    besidesDeliveries (e :: events) =
      (if e.attempt?.isNone then [e] else []) ++ besidesDeliveries events := by
  cases e <;> rfl

@[simp]
theorem besidesDeliveries_append (events more : List (Event α)) :
    besidesDeliveries (events ++ more) = besidesDeliveries events ++ besidesDeliveries more :=
  List.filter_append ..

theorem handed_besidesDeliveries (events : List (Event α)) :
    handed (besidesDeliveries events) = handed events := by
  induction events with
  | nil => rfl
  | cons e events ih =>
    cases e <;> simp [besidesDeliveries_cons, attempt?, handed_cons, bytes, ih]

end Event

namespace Terminal

variable [Sink ω]

theorem flush_ok {t : Terminal ω} (ht : Sink.Reliable t.out) : t.flush.1 = .ok () := by
  unfold flush
  split
  · rfl
  · simp [deliver, ht.deliver_eq, Except.mapError]

theorem flush_eq (t : Terminal ω) :
    t.flush.2.1 = { t with out := t.flush.2.1.out, pending := t.flush.2.1.pending } := by
  unfold flush
  split <;> rfl

theorem Passes.received_eq {t t' : Terminal ω} {b : Bytes}
    {attempts : List Delivery} (h : t.Passes t' b attempts) (ht : Sink.Reliable t.out) :
    attempts.flatMap Delivery.received ++ t'.pending = t.pending ++ b := by
  have hsegments : attempts.flatMap Delivery.received = attempts.flatMap Delivery.segment := by
    refine List.flatMap_congr ?_
    intro d hd
    exact (h.attempt d hd).received_eq fun c hc ↦
      ht _ _ h.answers c (List.mem_flatMap.2 ⟨d, hd, hc⟩)
  rw [hsegments, h.bytes]

end Terminal

namespace Station

variable [Sink ω]

/-- The stations differ only in what is held and in what has reached their streams. -/
structure Alike (s t : Station ω) : Prop where
  host : s.host = t.host
  board : s.board = t.board
  session : s.terminal.session = t.terminal.session
  config : s.terminal.config = t.terminal.config
  term : s.terminal.term = t.terminal.term
  descriptor : Sink.descriptor s.terminal.out = Sink.descriptor t.terminal.out

variable {s s' t t' : Station ω}

theorem Alike.refl (s : Station ω) : s.Alike s := ⟨rfl, rfl, rfl, rfl, rfl, rfl⟩

theorem Alike.trans {u : Station ω} (h : s.Alike t) (h' : t.Alike u) : s.Alike u where
  host := h.host.trans h'.host
  board := h.board.trans h'.board
  session := h.session.trans h'.session
  config := h.config.trans h'.config
  term := h.term.trans h'.term
  descriptor := h.descriptor.trans h'.descriptor

theorem Alike.symm (h : s.Alike t) : t.Alike s where
  host := h.host.symm
  board := h.board.symm
  session := h.session.symm
  config := h.config.symm
  term := h.term.symm
  descriptor := h.descriptor.symm

/-- The operation succeeds, and does not show but for what has joined the output. -/
structure Lets (s : Station ω) (r : Answer × Station ω × List (Event α)) (seen : List (Event α)) :
    Prop where
  answer : r.1 = .ok .unit
  alike : s.Alike r.2.1
  events : Event.besidesDeliveries r.2.2 = seen

theorem besidesDeliveries_delivered (d : Option Delivery) :
    Event.besidesDeliveries (d.toList.map (Event.delivered (α := α))) = [] := by
  cases d <;> rfl

theorem lets_flush (hs : Sink.Reliable s.terminal.out) : s.Lets (s.flush (α := α)) [] where
  answer := by simp [flush, Terminal.flush_ok hs, Except.map]
  alike :=
    { host := rfl
      board := rfl
      session := by
        change _ = s.terminal.flush.2.1.session
        rw [s.terminal.flush_eq]
      config := by
        change _ = s.terminal.flush.2.1.config
        rw [s.terminal.flush_eq]
      term := by
        change _ = s.terminal.flush.2.1.term
        rw [s.terminal.flush_eq]
      descriptor := (Sink.descriptor_of_answers s.terminal.passes_flush.answers).symm }
  events := besidesDeliveries_delivered _

theorem lets_write (hs : Sink.Reliable s.terminal.out) (b : Bytes) :
    s.Lets (s.write (α := α) b) [.accepted b] := by
  let joined : Station ω :=
    { s with terminal := { s.terminal with pending := s.terminal.pending ++ b } }
  have hjoined : s.Alike joined := ⟨rfl, rfl, rfl, rfl, rfl, rfl⟩
  have hflush : joined.Lets (joined.flush (α := α)) [] := lets_flush hs
  exact ⟨hflush.answer, hjoined.trans hflush.alike, congrArg (_ :: ·) hflush.events⟩

theorem Lets.both {r r' : Answer × Station ω × List (Event α)} {seen : List (Event α)}
    (h : s.Alike t) (hr : s.Lets r seen) (hr' : t.Lets r' seen) :
    r.1 = r'.1 ∧ r.2.1.Alike r'.2.1 ∧
      Event.besidesDeliveries r.2.2 = Event.besidesDeliveries r'.2.2 :=
  ⟨hr.answer.trans hr'.answer.symm, (hr.alike.symm.trans h).trans hr'.alike,
    hr.events.trans hr'.events.symm⟩

omit [Sink ω] in
theorem controlString_congr {t t' : Terminal ω} (hsession : t.session = t'.session)
    (hconfig : t.config = t'.config) (name : String) (parameters : List Int64) :
    t.controlString name parameters = t'.controlString name parameters := by
  simp only [Terminal.controlString, Terminal.controlStringAffecting, hsession, hconfig]

omit [Sink ω] in
theorem dimension_congr {t t' : Terminal ω} (hsession : t.session = t'.session)
    (hconfig : t.config = t'.config) (h : Host) (reported : UInt16) (setting name : String) :
    t.dimension h reported setting name = t'.dimension h reported setting name := by
  unfold Terminal.dimension Terminal.fallbackDimension
  rw [hsession, hconfig]

theorem screenSize_congr (h : s.Alike t) :
    s.terminal.screenSize s.host = t.terminal.screenSize t.host := by
  unfold Terminal.screenSize
  simp only [dimension_congr h.session h.config, h.descriptor, h.host]

theorem read_congr (h : s.Alike t) {r : Reading ω} (hr : r.Blind) :
    s.terminal.read s.host r = t.terminal.read t.host r := by
  cases r with
  | inspect view => exact hr.elim
  | controlString name parameters =>
    simp only [Terminal.read, controlString_congr h.session h.config]
  | controlStringAffecting lines name parameters =>
    simp only [Terminal.read, Terminal.controlStringAffecting, h.session]
  | screenSize => simp only [Terminal.read, screenSize_congr h]
  | screenLines => simp only [Terminal.read, Terminal.screenLines, screenSize_congr h]
  | screenColumns => simp only [Terminal.read, Terminal.screenColumns, screenSize_congr h]
  | term => simp only [Terminal.read, h.term]
  | config => simp only [Terminal.read, h.config]
  | describe inLines =>
    unfold Terminal.read Terminal.describe Terminal.describeInLines
    rw [h.term]
  | ask query => simp only [Terminal.read, h.session]

theorem Alike.act (h : s.Alike t) (hs : Sink.Reliable s.terminal.out)
    (ht : Sink.Reliable t.terminal.out) {action : Action ω} (ha : action.Blind) :
    (s.act (α := α) action).1 = (t.act (α := α) action).1 ∧
      (s.act (α := α) action).2.1.Alike (t.act (α := α) action).2.1 ∧
      Event.besidesDeliveries (s.act (α := α) action).2.2 =
        Event.besidesDeliveries (t.act (α := α) action).2.2 := by
  cases action with
  | control name parameters =>
    have hrun : (s.terminal.controlString name parameters).run s.board =
        (t.terminal.controlString name parameters).run t.board := by
      rw [controlString_congr h.session h.config, h.board]
    simp only [Station.act, hrun]
    cases (t.terminal.controlString name parameters).run t.board with | mk result board
    have hswitched : ({ s with board } : Station ω).Alike { t with board } := { h with board := rfl }
    cases result with
    | error e => exact ⟨rfl, hswitched, rfl⟩
    | ok b =>
      exact Lets.both hswitched (lets_write (s := { s with board }) hs b)
        (lets_write (s := { t with board }) ht b)
  | write b => exact Lets.both h (lets_write hs b) (lets_write ht b)
  | flush => exact Lets.both h (lets_flush hs) (lets_flush ht)
  | read r =>
    have hrun : (s.terminal.read s.host r).run s.board = (t.terminal.read t.host r).run t.board := by
      rw [read_congr h ha, h.board]
    simp only [Station.act, hrun]
    exact ⟨trivial, { h with board := rfl }, trivial⟩
  | setEnv name value =>
    exact ⟨rfl, { h with host := by simp only [Station.act, h.host] }, rfl⟩
  | resize fd rows cols =>
    simp only [Station.act, h.host]
    exact ⟨trivial, { h with host := rfl }, trivial⟩

theorem reliable_act (hs : Sink.Reliable s.terminal.out) (action : Action ω) :
    Sink.Reliable (s.act (α := α) action).2.1.terminal.out :=
  hs.after (s.passes_act action).answers

theorem settle_of_held {exit : Exit α} (h : s.terminal.depth ≠ 0 ∨ exit = .aborted) :
    s.settle exit = (exit, s, []) := by
  rcases h with hdepth | rfl
  · simp [settle, hdepth]
  · simp [settle]

theorem settle_of_reliable (hs : Sink.Reliable s.terminal.out) {exit : Exit α}
    (hdepth : s.terminal.depth = 0) (hexit : exit ≠ .aborted) :
    let written := Sink.writeAll s.terminal.out s.terminal.pending
    s.settle exit =
      (exit,
        { s with
          terminal := { s.terminal with out := (Sink.flush written.2.1).2, pending := [] } },
        [.delivered { segment := s.terminal.pending, calls := written.2.2 ++ [.flush none] }]) := by
  cases exit with
  | aborted => exact absurd rfl hexit
  | returned a | failed e => simp [settle, hdepth, Terminal.deliver, hs.deliver_eq]

theorem alike_settle (hs : Sink.Reliable s.terminal.out) (exit : Exit α) :
    (s.settle exit).1 = exit ∧ s.Alike (s.settle exit).2.1 ∧
      Event.besidesDeliveries (s.settle exit).2.2 = [] := by
  by_cases h : s.terminal.depth ≠ 0 ∨ exit = .aborted
  · rw [settle_of_held h]
    exact ⟨rfl, .refl s, rfl⟩
  · obtain ⟨hdepth, hexit⟩ := not_or.1 h
    have hout := Sink.descriptor_of_answers s.terminal.passes_deliver.answers
    simp only [Terminal.deliver, hs.deliver_eq] at hout
    rw [settle_of_reliable hs (not_not.1 hdepth) hexit]
    exact ⟨rfl, ⟨rfl, rfl, rfl, rfl, rfl, hout.symm⟩, rfl⟩

theorem reliable_settle (hs : Sink.Reliable s.terminal.out) (exit : Exit α) :
    Sink.Reliable (s.settle exit).2.1.terminal.out :=
  hs.after (s.passes_settle exit).answers

theorem act_held (hs : s.terminal.depth ≠ 0) (action : Action ω) :
    Event.attempts (s.act (α := α) action).2.2 = [] ∧
      (s.act (α := α) action).2.1.terminal.out = s.terminal.out ∧
      (s.act (α := α) action).2.1.terminal.depth = s.terminal.depth := by
  cases action with
  | control name parameters =>
    cases hrun : (s.terminal.controlString name parameters).run s.board with | mk result board
    cases result <;> simp [act, hrun, write, Terminal.write, Terminal.flush, hs, Event.attempts,
      Event.attempt?]
  | write b => simp [act, write, Terminal.write, Terminal.flush, hs, Event.attempts, Event.attempt?]
  | flush => simp [act, flush, Terminal.flush, hs, Event.attempts]
  | read r | setEnv name value | resize fd rows cols => exact ⟨rfl, rfl, rfl⟩

end Station

namespace Closure

variable [Sink ω]

/-- Where the streams are reliable, the run of a program and the run with plain calls differ only in
when the bytes go out. -/
theorem run_alike (c : Closure ω α) (hc : c.Blind) {s t : Station ω} (h : s.Alike t)
    (hs : Sink.Reliable s.terminal.out) (ht : Sink.Reliable t.terminal.out) :
    (c.run s).1 = (c.runInline t).1 ∧ (c.run s).2.1.Alike (c.runInline t).2.1 ∧
      Event.besidesDeliveries (c.run s).2.2 = Event.besidesDeliveries (c.runInline t).2.2 ∧
      Sink.Reliable (c.run s).2.1.terminal.out ∧ Sink.Reliable (c.runInline t).2.1.terminal.out := by
  induction c generalizing s t with
  | leave exit => exact ⟨rfl, h, rfl, hs, ht⟩
  | perform action next ih =>
    obtain ⟨haction, hnext⟩ := hc
    obtain ⟨hanswer, halike, hseen⟩ := h.act (α := α) hs ht haction
    have hs' := Station.reliable_act (α := α) hs action
    have ht' := Station.reliable_act (α := α) ht action
    obtain ⟨hexit, halike', hseen', hrest⟩ := ih (s.act (α := α) action).1 (hnext _) halike hs' ht'
    rw [hanswer] at hexit halike' hseen' hrest
    simp only [run, runInline, hanswer]
    refine ⟨hexit, halike', ?_, hrest⟩
    simp [hseen, hseen', Event.besidesDeliveries_cons, Event.attempt?]
  | batch body next ihbody ihnext =>
    obtain ⟨hbody, hnext⟩ := hc
    have hdeeper : (s.atDepth (s.terminal.depth + 1)).Alike t := { h with }
    obtain ⟨hinner, halike, hseen, hs', ht'⟩ := ihbody hbody hdeeper hs ht
    simp only [run, runInline]
    generalize body.run (s.atDepth (s.terminal.depth + 1)) = batched at hinner halike hseen hs' ⊢
    generalize body.runInline t = plain at hinner halike hseen ht' ⊢
    obtain ⟨inner, s', during⟩ := batched
    obtain ⟨inner', t', during'⟩ := plain
    obtain rfl : inner = inner' := hinner
    obtain ⟨hinner, hsettled, hquiet⟩ :=
      Station.alike_settle (s := s'.atDepth (s'.terminal.depth - 1)) hs' inner
    have hs'' := Station.reliable_settle (s := s'.atDepth (s'.terminal.depth - 1)) hs' inner
    have hclosed : s'.Alike (s'.atDepth (s'.terminal.depth - 1)) := { Station.Alike.refl s' with }
    have hjoined := (hclosed.trans hsettled).symm.trans halike
    obtain ⟨hexit, halike', hseen', hrest⟩ := ihnext inner (hnext _) hjoined hs'' ht'
    rw [hinner]
    refine ⟨hexit, halike', ?_, hrest⟩
    simpa [hquiet, Event.besidesDeliveries_cons, Event.attempt?] using congrArg₂ (· ++ Event.left inner :: ·) hseen hseen'

theorem run_held (c : Closure ω α) {s : Station ω} (hs : s.terminal.depth ≠ 0) :
    Event.attempts (c.run s).2.2 = [] ∧ (c.run s).2.1.terminal.out = s.terminal.out ∧
      (c.run s).2.1.terminal.depth = s.terminal.depth := by
  induction c generalizing s with
  | leave exit => exact ⟨rfl, rfl, rfl⟩
  | perform action next ih =>
    obtain ⟨hattempts, hout, hdepth⟩ := s.act_held (α := α) hs action
    obtain ⟨hattempts', hout', hdepth'⟩ :=
      ih (s.act (α := α) action).1 (s := (s.act (α := α) action).2.1) (hdepth ▸ hs)
    refine ⟨?_, hout'.trans hout, hdepth'.trans hdepth⟩
    simp only [run, Event.attempts_append, Event.attempts_cons, hattempts, hattempts']
    rfl
  | batch body next ihbody ihnext =>
    obtain ⟨hattempts, hout, hdepth⟩ := ihbody (s := s.atDepth (s.terminal.depth + 1))
      (Nat.succ_ne_zero _)
    simp only [run]
    generalize body.run (s.atDepth (s.terminal.depth + 1)) = ran at hattempts hout hdepth ⊢
    obtain ⟨inner, s', during⟩ := ran
    have hclosed : (s'.atDepth (s'.terminal.depth - 1)).terminal.depth = s.terminal.depth := by
      change s'.terminal.depth - 1 = s.terminal.depth
      rw [hdepth]
      rfl
    rw [Station.settle_of_held (.inl (hclosed ▸ hs))]
    obtain ⟨hattempts', hout', hdepth'⟩ :=
      ihnext inner (s := s'.atDepth (s'.terminal.depth - 1)) (hclosed ▸ hs)
    refine ⟨?_, hout'.trans hout, hdepth'.trans hclosed⟩
    simp only [Event.attempts_append, Event.attempts_cons, hattempts, hattempts']
    rfl

theorem run_batch_of_reliable (p : Closure ω α) {s : Station ω} (hdepth : s.terminal.depth = 0)
    (hs : Sink.Reliable s.terminal.out) (hexit : (p.run (s.atDepth 1)).1 ≠ .aborted) :
    let within := p.run (s.atDepth 1)
    let held := within.2.1.terminal.pending
    let written := Sink.writeAll s.terminal.out held
    ((batch p .leave).run s).2.2 = .entered :: within.2.2 ++
        [.delivered { segment := held, calls := written.2.2 ++ [.flush none] }, .left within.1] ∧
      ((batch p .leave).run s).2.1.terminal.out = (Sink.flush written.2.1).2 := by
  obtain ⟨-, hout, hone⟩ := p.run_held (s := s.atDepth 1) Nat.one_ne_zero
  have hwithin : p.run (s.atDepth (s.terminal.depth + 1)) = p.run (s.atDepth 1) := by rw [hdepth]
  simp only [run, hwithin]
  generalize p.run (s.atDepth 1) = within at hout hone hexit ⊢
  obtain ⟨exit, s', during⟩ := within
  have hout' : s'.terminal.out = s.terminal.out := hout
  have hzero : s'.terminal.depth - 1 = 0 := congrArg (· - 1) hone
  have hsettle := Station.settle_of_reliable (s := s'.atDepth (s'.terminal.depth - 1))
    (show Sink.Reliable s'.terminal.out from hout' ▸ hs) hzero hexit
  rw [hsettle]
  simp [Station.atDepth, hout']

/-- On a stream that does not fail, a batch shows only in when the bytes go out. All answers and
exits are those of plain calls in place of the batch and of the batches in it, and so is the output,
be it delivered or still held. While the closure runs the stream gets no call; at its end everything
that is held is written at once and flushed once. -/
theorem batch_transparent (p : Closure ω α) (hp : p.Blind) (s : Station ω)
    (hdepth : s.terminal.depth = 0) (hreliable : Sink.Reliable s.terminal.out) :
    let batched := (batch p .leave).run s
    let plain := (batch p .leave).runInline s
    let within := p.run (s.atDepth 1)
    let held := within.2.1.terminal.pending
    let written := Sink.writeAll s.terminal.out held
    (batched.1 = plain.1 ∧
      Event.besidesDeliveries batched.2.2 = Event.besidesDeliveries plain.2.2 ∧
      batched.2.1.host = plain.2.1.host ∧ batched.2.1.board = plain.2.1.board ∧
      Event.received batched.2.2 ++ batched.2.1.terminal.pending =
        Event.received plain.2.2 ++ plain.2.1.terminal.pending) ∧
      (batch p .leave).inlined.run s = (plain.1, plain.2.1, Event.unmarked plain.2.2) ∧
      (Event.attempts within.2.2 = [] ∧ within.2.1.terminal.out = s.terminal.out) ∧
      (within.1 ≠ .aborted →
        batched.2.2 = .entered :: within.2.2 ++
          [.delivered { segment := held, calls := written.2.2 ++ [.flush none] }, .left within.1] ∧
        batched.2.1.terminal.out = (Sink.flush written.2.1).2 ∧
        (held = [] → written.2.2 = [])) := by
  intro batched plain within held written
  have hblind : (batch p .leave : Closure ω α).Blind := ⟨hp, fun _ ↦ trivial⟩
  obtain ⟨hexit, halike, hseen, -, -⟩ := run_alike _ hblind (.refl s) hreliable hreliable
  have hhanded : Event.handed batched.2.2 = Event.handed plain.2.2 := by
    rw [← Event.handed_besidesDeliveries, hseen, Event.handed_besidesDeliveries]
  have hbatched := (passes_run (batch p .leave) s).received_eq hreliable
  have hplain := (passes_runInline (batch p .leave) s).received_eq hreliable
  have hstream : Event.received batched.2.2 ++ batched.2.1.terminal.pending =
      Event.received plain.2.2 ++ plain.2.1.terminal.pending :=
    hbatched.trans ((congrArg _ hhanded).trans hplain.symm)
  obtain ⟨hquiet, hout, -⟩ := p.run_held (s := s.atDepth 1) Nat.one_ne_zero
  refine ⟨⟨hexit, hseen, halike.host, halike.board, hstream⟩, run_inlined _ s, ⟨hquiet, hout⟩, ?_⟩
  intro hvalue
  obtain ⟨hrun, hlast⟩ := run_batch_of_reliable p hdepth hreliable hvalue
  exact ⟨hrun, hlast, fun hnone ↦ by simp only [written, hnone, Sink.writeAll]⟩

theorem batch_transparent_rationed :
    let s : Station Rationed :=
      { host := {}
        board := .start .ascending
        terminal :=
          { session := {}, out := { fd := 1, chunk := some 2, interrupts := 3 }, config := {}
            term := "x", pending := [7] } }
    let inner : Closure Rationed Unit := ofSteps false (.failed .alreadyInitialized)
      [.act (.control "cup" []), .act .flush, .act (.write [3, 4])]
    let p : Closure Rationed Unit := ofSteps true (.returned ())
      [.act (.write [1, 2]), .batch inner, .act (.write [5])]
    p.Blind ∧ s.terminal.depth = 0 ∧ Sink.Reliable s.terminal.out ∧
      (p.run (s.atDepth 1)).1 = .failed .alreadyInitialized ∧
      ((batch p .leave).run s).1 = ((batch p .leave).runInline s).1 ∧
      Event.attempts (p.run (s.atDepth 1)).2.2 = [] := by
  intro s inner p
  have hinner : inner.Blind := blind_ofSteps _ _ (by simp [Step.Blind, Action.Blind])
  have hp : p.Blind := blind_ofSteps _ _ (by simp [Step.Blind, Action.Blind, hinner])
  have hreliable : Sink.Reliable s.terminal.out :=
    Rationed.Ample.reliable ⟨rfl, by simp [s], rfl⟩
  obtain ⟨⟨hexit, -⟩, -, ⟨hquiet, -⟩, -⟩ := batch_transparent p hp s rfl hreliable
  exact ⟨hp, rfl, hreliable, rfl, hexit, hquiet⟩

end Closure

end Terminfo
