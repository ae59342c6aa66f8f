import Mathlib.Data.List.Basic
import Terminfo.Device

set_option autoImplicit false

namespace Terminfo

inductive WindowRequest
  | get (fd : Descriptor)
  | getCells (fd : Descriptor)
  | set (fd : Descriptor) (size : WindowSize)
  | setCells (fd : Descriptor) (rows cols : UInt16)

namespace WindowRequest

def descriptor : WindowRequest → Descriptor
  | .get fd | .getCells fd | .set fd _ | .setCells fd _ _ => fd

def size? : WindowRequest → Option WindowSize
  | .get _ | .getCells _ => none
  | .set _ size => some size
  | .setCells _ rows cols => some ⟨rows, cols, 0, 0⟩

def sizeOn? (opened : List (Descriptor × Device)) (line : Nat) (r : WindowRequest) :
    Option WindowSize :=
  if opened.lookup r.descriptor = some (.tty line) then r.size? else none

end WindowRequest

namespace Devices

def request (d : Devices) : WindowRequest → Devices
  | .get _ | .getCells _ => d
  | .set fd size => (size.setOn d fd).2
  | .setCells fd rows cols => (setWindowSize d fd rows cols).2

def requestAll (d : Devices) (requests : List WindowRequest) : Devices :=
  requests.foldl request d

/-- Both reads of a descriptor tell this size, and a set on it succeeds. -/
structure Shows (d : Devices) (fd : Descriptor) (size : WindowSize) : Prop where
  getFrom : WindowSize.getFrom d fd = .ok size
  windowSize : windowSize d fd = .ok (size.rows, size.cols)
  setOn : ∀ next : WindowSize, (next.setOn d fd).1 = .ok ()
  setWindowSize : ∀ rows cols, (setWindowSize d fd rows cols).1 = .ok ()

/-- Every call on a descriptor fails with one number of the system, and no set changes anything. -/
structure Refuses (d : Devices) (fd : Descriptor) (code : Int32) : Prop where
  getFrom : WindowSize.getFrom d fd = .error (.windowSize (.system code))
  windowSize : windowSize d fd = .error (.windowSize (.system code))
  setOn : ∀ next : WindowSize, next.setOn d fd = (.error (.windowSize (.system code)), d)
  setWindowSize : ∀ rows cols,
    setWindowSize d fd rows cols = (.error (.windowSize (.system code)), d)

variable {d : Devices} {fd : Descriptor} {line : Nat}

theorem line_eq_ok_iff : d.line fd = .ok line ↔ d.opened.lookup fd = some (.tty line) := by
  unfold Devices.line
  cases d.opened.lookup fd with
  | none => simp
  | some device => cases device <;> simp

theorem shows_of_line (h : d.line fd = .ok line) :
    d.Shows fd (.ofRecord (d.tty line).window) where
  getFrom := by simp only [WindowSize.getFrom, h]
  windowSize := by simp only [Terminfo.windowSize, WindowSize.getFrom, h, Except.map]
  setOn next := by simp only [WindowSize.setOn, h]
  setWindowSize rows cols := by simp only [Terminfo.setWindowSize, WindowSize.setOn, h]

theorem refuses_of_line {code : Int32} (h : d.line fd = .error (.system code))
    (himplemented : code ≠ SystemError.notImplemented)
    (hsupported : code ≠ SystemError.notSupported) : d.Refuses fd code := by
  have hcause : WindowSize.refusal (.system code) = .windowSize (.system code) :=
    if_neg (not_or.2 ⟨himplemented, hsupported⟩)
  constructor
  · simp only [WindowSize.getFrom, h, hcause]
  · simp only [Terminfo.windowSize, WindowSize.getFrom, h, hcause, Except.map]
  · intro next
    simp only [WindowSize.setOn, h, hcause]
  · intro rows cols
    simp only [Terminfo.setWindowSize, WindowSize.setOn, h, hcause]

theorem opened_setOn (size : WindowSize) : (size.setOn d fd).2.opened = d.opened := by
  unfold WindowSize.setOn
  cases d.line fd <;> rfl

theorem tty_setOn_of_ne (size : WindowSize) (h : d.opened.lookup fd ≠ some (.tty line)) :
    (size.setOn d fd).2.tty line = d.tty line := by
  cases hline : d.line fd with
  | error e => simp only [WindowSize.setOn, hline]
  | ok other =>
    have hne : line ≠ other := fun heq ↦ h (line_eq_ok_iff.1 (heq ▸ hline))
    simp only [WindowSize.setOn, hline, tty_setWindow_of_ne d _ hne]

theorem window_setOn_self (size : WindowSize) (h : d.opened.lookup fd = some (.tty line)) :
    ((size.setOn d fd).2.tty line).window = size.toRecord := by
  simp only [WindowSize.setOn, line_eq_ok_iff.2 h, window_setWindow_self]

theorem opened_request (r : WindowRequest) : (d.request r).opened = d.opened := by
  cases r with
  | get fd | getCells fd => rfl
  | set fd size | setCells fd rows cols => exact opened_setOn _

theorem tty_request_of_ne {r : WindowRequest}
    (h : d.opened.lookup r.descriptor ≠ some (.tty line)) :
    (d.request r).tty line = d.tty line := by
  cases r with
  | get fd | getCells fd => rfl
  | set fd size | setCells fd rows cols => exact tty_setOn_of_ne _ h

theorem window_request (r : WindowRequest) (line : Nat) :
    WindowSize.ofRecord ((d.request r).tty line).window =
      (r.sizeOn? d.opened line).getD (.ofRecord (d.tty line).window) := by
  by_cases h : d.opened.lookup r.descriptor = some (.tty line)
  · rw [WindowRequest.sizeOn?, if_pos h]
    cases r with
    | get fd | getCells fd => rfl
    | set fd size | setCells fd rows cols =>
      exact congrArg WindowSize.ofRecord (window_setOn_self _ h)
  · rw [WindowRequest.sizeOn?, if_neg h, tty_request_of_ne h, Option.getD_none]

theorem opened_requestAll (past : List WindowRequest) :
    (d.requestAll past).opened = d.opened := by
  induction past generalizing d with
  | nil => rfl
  | cons r past ih => exact (ih (d := d.request r)).trans (opened_request r)

theorem window_requestAll (past : List WindowRequest) (line : Nat) :
    WindowSize.ofRecord ((d.requestAll past).tty line).window =
      (past.filterMap (·.sizeOn? d.opened line)).getLastD (.ofRecord (d.tty line).window) := by
  induction past generalizing d with
  | nil => rfl
  | cons r past ih =>
    have hrest := ih (d := d.request r)
    rw [opened_request, window_request] at hrest
    refine hrest.trans ?_
    cases hset : r.sizeOn? d.opened line with
    | none => rw [List.filterMap_cons_none hset, Option.getD_none]
    | some size => rw [List.filterMap_cons_some hset, Option.getD_some, List.getLastD_cons]

/-- The window of a tty is one register, whatever end a call goes through. -/
theorem shows_last_set (opened : List (Descriptor × Device)) (speed : Nat → Int32)
    (past : List WindowRequest) :
    let d := Devices.requestAll { opened, tty := fun line ↦ { speed := speed line } } past
    (∀ fd line, opened.lookup fd = some (.tty line) →
      d.Shows fd ((past.filterMap (·.sizeOn? opened line)).getLastD ⟨0, 0, 0, 0⟩)) ∧
    (∀ fd, opened.lookup fd = none → d.Refuses fd SystemError.badDescriptor) ∧
    (∀ fd device, opened.lookup fd = some device → (∀ line, device ≠ .tty line) →
      d.Refuses fd SystemError.notTerminal) ∧
    (∀ r line, opened.lookup r.descriptor ≠ some (.tty line) →
      (d.request r).tty line = d.tty line) ∧
    (∀ size, WindowSize.ofRecord size.toRecord = size) ∧
    ∀ record, (WindowSize.ofRecord record).toRecord = record := by
  intro d
  have hopened : d.opened = opened := opened_requestAll past
  refine ⟨?_, ?_, ?_, ?_, WindowSize.ofRecord_toRecord, WindowSize.toRecord_ofRecord⟩
  · intro fd line h
    have hshows := shows_of_line (line_eq_ok_iff.2 (hopened ▸ h))
    rwa [window_requestAll] at hshows
  · intro fd h
    have hline : d.line fd = .error (.system SystemError.badDescriptor) := by
      simp only [Devices.line, hopened, h]
    exact refuses_of_line hline (by decide) (by decide)
  · intro fd device h hdevice
    have hline : d.line fd = .error (.system SystemError.notTerminal) := by
      cases device with
      | file | pipe => simp only [Devices.line, hopened, h]
      | tty line => exact absurd rfl (hdevice line)
    exact refuses_of_line hline (by decide) (by decide)
  · intro r line h
    exact tty_request_of_ne (hopened ▸ h)

theorem shows_last_set_of_both_ends :
    let opened : List (Descriptor × Device) :=
      [(3, .tty 0), (4, .tty 0), (5, .tty 1), (6, .file)]
    let past : List WindowRequest :=
      [.set 3 ⟨24, 80, 640, 480⟩, .setCells 4 30 100, .setCells 6 1 1, .set 5 ⟨9, 9, 9, 9⟩,
        .set 7 ⟨2, 2, 2, 2⟩]
    let d := Devices.requestAll { opened, tty := fun _ ↦ {} } past
    opened.lookup 3 = some (.tty 0) ∧ d.Shows 3 ⟨30, 100, 0, 0⟩ ∧
    opened.lookup 5 = some (.tty 1) ∧ d.Shows 5 ⟨9, 9, 9, 9⟩ ∧
    opened.lookup 6 = some .file ∧ d.Refuses 6 SystemError.notTerminal ∧
    opened.lookup 7 = none ∧ d.Refuses 7 SystemError.badDescriptor := by
  intro opened past d
  have h := shows_last_set opened (fun _ ↦ 0) past
  exact ⟨rfl, h.1 3 0 rfl, rfl, h.1 5 1 rfl, rfl, h.2.2.1 6 .file rfl (fun _ ↦ nofun), rfl,
    h.2.1 7 rfl⟩

end Devices

end Terminfo
