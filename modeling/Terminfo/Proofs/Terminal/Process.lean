import Terminfo.Proofs.Crew.Own
import Terminfo.Proofs.Session.Fixed
import Terminfo.Proofs.Terminal.Frame
import Terminfo.Proofs.Terminal.Reliable

set_option autoImplicit false

namespace Terminfo

variable {ω α : Type}

structure Resize where
  fd : Descriptor
  rows : UInt16
  cols : UInt16
  deriving DecidableEq, Repr

def Devices.resized (d : Devices) (r : Resize) : Devices := (setWindowSize d r.fd r.rows r.cols).2

def Action.resize? : Action ω → Option Resize
  | .resize fd rows cols => some ⟨fd, rows, cols⟩
  | _ => none

def Move.resize? : Move → Option Resize
  | .resize fd rows cols => some ⟨fd, rows, cols⟩
  | _ => none

/-- A terminal with a program that drives it, in a process that has other sessions besides. -/
structure Process (ω α : Type) where
  moment : Moment ω α
  others : Own

inductive Happening
  | step
  | move (m : Move)

namespace Process

def station (p : Process ω α) : Station ω := p.moment.station

def fleet (p : Process ω α) : Fleet where
  host := p.station.host
  board := p.station.board
  sessions := p.others

def start (f : Fleet) (board : Switchboard) (t : Terminal ω) (program : Closure ω α) :
    Process ω α where
  moment := { closure := program, station := ⟨f.host, board, t⟩ }
  others := f.sessions

variable [Sink ω]

def next (p : Process ω α) : Happening → Process ω α
  | .step => { p with moment := p.moment.step }
  | .move m =>
    let f := (p.fleet.move m).2
    { moment := { p.moment with station := { p.station with host := f.host, board := f.board } }
      others := f.sessions }

def after (p : Process ω α) (history : List Happening) : Process ω α := history.foldl next p

def resize? (p : Process ω α) : Happening → Option Resize
  | .step =>
    match p.moment.closure with
    | .perform action _ => action.resize?
    | _ => none
  | .move m => m.resize?

def resizes (p : Process ω α) : List Happening → List Resize
  | [] => []
  | x :: history => (p.resize? x).toList ++ (p.next x).resizes history

end Process

variable [Sink ω]

namespace Station

variable (s : Station ω)

theorem board_settle (exit : Exit α) : (s.settle exit).2.1.board = s.board := by
  rcases s.settle_cases exit with h | ⟨exit', h⟩ <;> rw [h]

theorem host_settle (exit : Exit α) : (s.settle exit).2.1.host = s.host := by
  rcases s.settle_cases exit with h | ⟨exit', h⟩ <;> rw [h]

theorem tends_act {action : Action ω} (hb : s.board.Coherent)
    (hs : s.terminal.session.Live s.board) :
    s.terminal.session.Tends s.board (s.act (α := α) action).2.1.board := by
  cases action with
  | control name parameters =>
    have htends := s.terminal.minds_controlStringAffecting s.terminal.config.affectedLines name
      parameters s.board hb hs
    simp only [act, Terminal.controlString]
    generalize (s.terminal.controlStringAffecting _ name parameters).run s.board = r at htends ⊢
    obtain ⟨result, board⟩ := r
    cases result <;> exact htends
  | read r => exact s.terminal.minds_read s.host r s.board hb hs
  | write b | flush | setEnv name value | resize fd rows cols => exact .refl hb

theorem devices_act (action : Action ω) : (s.act (α := α) action).2.1.host.devices =
    action.resize?.toList.foldl Devices.resized s.host.devices := by
  cases action with
  | control name parameters =>
    simp only [act]
    generalize (s.terminal.controlString name parameters).run s.board = r
    obtain ⟨result, board⟩ := r
    cases result <;> rfl
  | read r | write b | flush | setEnv name value | resize fd rows cols => rfl

end Station

namespace Moment

variable {m : Moment ω α}

theorem tends_step (hb : m.station.board.Coherent)
    (hs : m.station.terminal.session.Live m.station.board) :
    m.station.terminal.session.Tends m.station.board m.step.station.board := by
  unfold step
  split
  · exact m.station.tends_act hb hs
  · exact .refl hb
  · simp only [leave, Station.board_settle]
    exact .refl hb
  · exact .refl hb

theorem descriptor_step : Sink.descriptor m.step.station.terminal.out =
    Sink.descriptor m.station.terminal.out := by
  unfold step
  split
  · exact Sink.descriptor_of_answers (m.station.passes_act _).answers
  · rfl
  · exact Sink.descriptor_of_answers
      ((m.station.atDepth (m.station.terminal.depth - 1)).passes_settle _).answers
  · rfl

end Moment

namespace Process

variable {p : Process ω α} {t : Terminal ω} {c : Context}

theorem devices_next (p : Process ω α) (x : Happening) : (p.next x).station.host.devices =
    (p.resize? x).toList.foldl Devices.resized p.station.host.devices := by
  cases x with
  | step =>
    simp only [next, resize?, station, Moment.step]
    cases p.moment.closure with
    | leave exit =>
      cases p.moment.waiting with
      | nil => rfl
      | cons next waiting =>
        simp only [Moment.leave, Station.host_settle]
        rfl
    | perform action next => exact p.moment.station.devices_act action
    | batch body next => rfl
  | move m =>
    cases m with
    | establish name term fd =>
      simp only [next, Fleet.move]
      generalize (Session.establish p.fleet.host term fd).run p.fleet.board = r
      obtain ⟨result, board⟩ := r
      cases result <;> rfl
    | init name term fd =>
      simp only [next, Fleet.move]
      cases p.fleet.session? name <;> rfl
    | create name | ask name query | retire name | retireHidden name | setEnv name value
    | resize fd rows cols => rfl

theorem devices_after (p : Process ω α) (history : List Happening) :
    (p.after history).station.host.devices =
      (p.resizes history).foldl Devices.resized p.station.host.devices := by
  induction history generalizing p with
  | nil => rfl
  | cons x history ih =>
    rw [resizes, List.foldl_append, ← devices_next]
    exact ih (p.next x)

/-- The terminal is the given one but for its output and for open batches, and its session has the
context that was set up for it, which no other session has. -/
structure Lasts (p : Process ω α) (t : Terminal ω) (c : Context) : Prop where
  nested : p.moment.Nested t
  descriptor : Sink.descriptor p.station.terminal.out = Sink.descriptor t.out
  live : t.session.Live p.station.board
  fixed : (t.session.owned p.station.board).fixed = some c
  others : ∃ w, Own.At p.others w p.station.board
  apart : ∀ a, t.session.context = some a → a ∉ Fleet.addressesOf p.others

theorem Lasts.coherent (h : p.Lasts t c) : p.station.board.Coherent := by
  obtain ⟨w, hw⟩ := h.others
  exact hw.coherent

theorem Lasts.step (h : p.Lasts t c) : (p.next .step).Lasts t c := by
  obtain ⟨w, hw⟩ := h.others
  have htends : t.session.Tends p.station.board p.moment.step.station.board := by
    have hsession : p.moment.station.terminal.session = t.session := h.nested.session
    rw [← hsession]
    exact Moment.tends_step h.coherent (hsession ▸ h.live)
  have hothers : ∀ a ∈ Fleet.addressesOf p.others,
      p.moment.step.station.board.provider.held? a = p.station.board.provider.held? a :=
    fun a ha ↦ htends.others fun hs ↦ h.apart a hs ha
  exact ⟨h.nested.step, Moment.descriptor_step.trans h.descriptor, htends.live h.live,
    htends.fixed.trans h.fixed,
    ⟨w, htends.coherent, hw.nodup, htends.addresses ▸ hw.subset, hw.owned_of_unchanged hothers⟩,
    h.apart⟩

theorem Lasts.move (h : p.Lasts t c) (m : Move) : (p.next (.move m)).Lasts t c := by
  obtain ⟨w, hw⟩ := h.others
  have hleads := Own.At.leads_move (f := p.fleet) hw m
  have hmine : ∀ a, t.session.context = some a → _ := fun a ha ↦
    hleads.others a (h.live a ha) (h.apart a ha)
  have howned : t.session.owned (p.fleet.move m).2.board = t.session.owned p.station.board :=
    Session.owned_congr fun {a} ha ↦ (hmine a ha).2
  refine ⟨⟨h.nested.session, h.nested.config, h.nested.term, h.nested.depth⟩, h.descriptor,
    fun a ha ↦ (hmine a ha).1, ?_, ⟨_, hleads.at'⟩, fun a ha hmem ↦ ?_⟩
  · exact (congrArg OwnedSession.fixed howned).trans h.fixed
  · -- what the others set up lies where nothing lay before
    rcases hleads.fresh a hmem with hold | hnew
    · exact h.apart a ha hold
    · exact hnew (h.live a ha)

theorem Lasts.after (h : p.Lasts t c) (history : List Happening) : (p.after history).Lasts t c := by
  induction history generalizing p with
  | nil => exact h
  | cons x history ih =>
    cases x with
    | step => exact ih h.step
    | move m => exact ih (h.move m)

theorem lasts_start {f : Fleet} {config : Config} {out : ω} {board : Switchboard}
    (hf : f.Coherent)
    (ht : (Terminal.establish f.host config out).run f.board = (.ok t, board)) : ∃ name entry,
      Switchboard.Acquires f.host config.term name entry ∧ t.config = config ∧ t.out = out ∧
        ∀ program : Closure ω α, (start f board t program).Lasts t
          (Context.load f.host name (Sink.descriptor out) entry) := by
  obtain ⟨-, s, hs, rfl⟩ := Terminal.establish_run_eq_ok_iff.1 ht
  obtain ⟨n, hn⟩ := Session.establish_run_eq_ok_iff.1 hs
  have hi := Session.init_starts hf.board Fleet.live_empty f.host config.term (Sink.descriptor out)
  rw [hn] at hi
  obtain ⟨name, entry, hacquires, hfixed⟩ := OwnedSession.fixed_init_of_ok hi.answer.symm
  obtain ⟨fresh, haddresses, hcontext⟩ := hi.addresses
  have hfresh : ∀ a, s.context = some a → a ∈ fresh := fun a ha ↦ by
    have hmem : a ∈ s.context.toList := by simp [ha]
    simpa [hcontext] using hmem
  have hnodup : (fresh ++ f.board.provider.addresses).Nodup :=
    haddresses ▸ hi.coherent.orderly.nodup
  refine ⟨name, entry, hacquires, rfl, rfl, fun program ↦ ⟨⟨rfl, rfl, rfl, rfl⟩, rfl,
    fun a ha ↦ ?_, (congrArg _ hi.owned).trans hfixed,
    ⟨_, hi.coherent, ?_, fun a ha ↦ ?_, rfl⟩, fun a ha hmem ↦ ?_⟩⟩
  · exact haddresses ▸ List.mem_append_left _ (hfresh a ha)
  · exact hf.owned.nodup_iff.2 hf.board.orderly.nodup
  · exact haddresses ▸ List.mem_append_right _ (hf.owned.subset ha)
  · exact List.disjoint_of_nodup_append hnodup (hfresh a ha) (hf.owned.subset hmem)

end Process

end Terminfo
