import Terminfo.Proofs.Provider
import Terminfo.Session

set_option autoImplicit false

namespace Terminfo.Padding

/-- What the provider does for one call. It hands the characters over one by one, and it may fail when
it has already done so. -/
structure Emission where
  handed : List Int32 := []
  failed : Bool := false
  deriving DecidableEq, Repr

def Emission.result (e : Emission) : Except Error Bytes :=
  if e.failed then .error .paddingFailed else .ok (e.handed.map lowByte)

abbrev Padder := Context → Int32 → Bytes → Emission

def Padder.own : Padder := fun c lines template ↦ { handed := (c.pad lines template).map signed }

/-- Each call has a padder of its own, so that two calls may end differently though they are alike. -/
structure Call where
  session : Session
  template : Bytes
  lines : Int32
  padder : Padder := .own

namespace Call

variable (call : Call)

/-- The context that the call switches to. Without one the call fails, and it never takes the
guard. -/
def admitted : Except Error Address :=
  match Session.checkTemplate call.template, call.session.context with
  | .error e, _ => .error e
  | .ok (), none => .error .notInitialized
  | .ok (), some a => .ok a

theorem context_of_admitted {a : Address} (ha : call.admitted = .ok a) :
    call.session.context = some a := by
  unfold admitted at ha
  cases htemplate : Session.checkTemplate call.template <;>
    cases hcontext : call.session.context <;> simp_all

def emission (context : Option Context) : Emission :=
  (context.map fun c ↦ call.padder c call.lines call.template).getD {}

def outcome (b : Switchboard) : Except Error Bytes :=
  call.admitted.bind fun a ↦ (call.emission (b.provider.held? a)).result

end Call

inductive Stage
  | taken
  | activated
  | handing (n : Nat)
  | unbound (result : Except Error Bytes)

def Call.left (call : Call) (b : Switchboard) (stage : Option Stage) : Nat :=
  match call.admitted with
  | .error _ => 1
  | .ok a =>
    let handed := (call.emission (b.provider.held? a)).handed
    match stage with
    | none => handed.length + 5
    | some .taken => handed.length + 4
    | some .activated => handed.length + 3
    | some (.handing n) => handed.length - n + 2
    | some (.unbound _) => 1

def Call.turns (b : Switchboard) : List Call → Nat
  | [] => 0
  | call :: rest => call.left b none + turns b rest

theorem Call.left_pos (call : Call) (b : Switchboard) (stage : Option Stage) :
    0 < call.left b stage := by
  unfold left
  split
  · exact Nat.one_pos
  · split <;> exact Nat.succ_pos _

structure Worker where
  calls : List Call
  stage : Option Stage := none
  answers : List (Except Error Bytes) := []

namespace Worker

variable (w : Worker)

def reach (stage : Stage) : Worker := { w with stage := some stage }

def answer (result : Except Error Bytes) : Worker where
  calls := w.calls.tail
  answers := w.answers ++ [result]

def account (b : Switchboard) : List (Except Error Bytes) :=
  w.answers ++ w.calls.map (·.outcome b)

def left (b : Switchboard) : Nat :=
  match w.calls with
  | [] => 0
  | call :: rest => call.left b w.stage + Call.turns b rest

end Worker

structure Team where
  board : Switchboard
  guard : Option Nat := none
  workers : List Worker

namespace Team

def start (board : Switchboard) (jobs : List (List Call)) : Team where
  board := board
  workers := jobs.map fun calls ↦ { calls }

variable (t : Team)

/-- A single step of one thread, if it can make one. A thread that wants the guard waits as long as
another one has it. -/
def step? (i : Nat) : Option Team := do
  let w ← t.workers[i]?
  let call ← w.calls.head?
  match call.admitted, w.stage with
  | .error e, _ => some { t with workers := t.workers.set i (w.answer (.error e)) }
  | .ok _, none =>
    if t.guard = none then
      some { t with guard := some i, workers := t.workers.set i (w.reach .taken) }
    else none
  | .ok a, some .taken =>
    some { t with board := t.board.activate a, workers := t.workers.set i (w.reach .activated) }
  | .ok _, some .activated =>
    some { t with board := t.board.bindOutlet i, workers := t.workers.set i (w.reach (.handing 0)) }
  | .ok _, some (.handing n) =>
    let emission := call.emission t.board.provider.context?
    match emission.handed[n]? with
    | some ch =>
      some { t with
        board := t.board.receive ch, workers := t.workers.set i (w.reach (.handing (n + 1))) }
    | none =>
      let result := if emission.failed then .error .paddingFailed else .ok t.board.outlet.collected
      some { t with
        board := t.board.unbindOutlet, workers := t.workers.set i (w.reach (.unbound result)) }
  | .ok _, some (.unbound result) =>
    some { t with guard := none, workers := t.workers.set i (w.answer result) }

def left (b : Switchboard) (i : Nat) : Nat := ((t.workers[i]?).map (·.left b)).getD 0

def run? (schedule : List Nat) : Option Team := schedule.foldlM step? t

variable {t} {i : Nat} {w : Worker} {call : Call} {t' : Team}

inductive Turn (t : Team) (i : Nat) (w : Worker) (call : Call) : Team → Prop
  | refuse {e : Error} : call.admitted = .error e →
      Turn t i w call { t with workers := t.workers.set i (w.answer (.error e)) }
  | take {a : Address} : call.admitted = .ok a → w.stage = none → t.guard = none →
      Turn t i w call { t with guard := some i, workers := t.workers.set i (w.reach .taken) }
  | activate {a : Address} : call.admitted = .ok a → w.stage = some .taken →
      Turn t i w call
        { t with board := t.board.activate a, workers := t.workers.set i (w.reach .activated) }
  | bind {a : Address} : call.admitted = .ok a → w.stage = some .activated →
      Turn t i w call
        { t with board := t.board.bindOutlet i, workers := t.workers.set i (w.reach (.handing 0)) }
  | hand {a : Address} {n : Nat} {ch : Int32} : call.admitted = .ok a → w.stage = some (.handing n) →
      (call.emission t.board.provider.context?).handed[n]? = some ch →
      Turn t i w call
        { t with
          board := t.board.receive ch, workers := t.workers.set i (w.reach (.handing (n + 1))) }
  | unbind {a : Address} {n : Nat} {result : Except Error Bytes} : call.admitted = .ok a →
      w.stage = some (.handing n) →
      (call.emission t.board.provider.context?).handed.length ≤ n →
      result = (if (call.emission t.board.provider.context?).failed then .error .paddingFailed
        else .ok t.board.outlet.collected) →
      Turn t i w call
        { t with
          board := t.board.unbindOutlet, workers := t.workers.set i (w.reach (.unbound result)) }
  | release {a : Address} {result : Except Error Bytes} : call.admitted = .ok a →
      w.stage = some (.unbound result) →
      Turn t i w call { t with guard := none, workers := t.workers.set i (w.answer result) }

theorem turn_of_step? (h : t.step? i = some t') :
    ∃ w call, t.workers[i]? = some w ∧ w.calls.head? = some call ∧ t.Turn i w call t' := by
  obtain ⟨w, hw, h⟩ := Option.bind_eq_some_iff.1 h
  obtain ⟨call, hcall, h⟩ := Option.bind_eq_some_iff.1 h
  refine ⟨w, call, hw, hcall, ?_⟩
  cases ha : call.admitted with
  | error e =>
    simp only [ha] at h
    obtain rfl := Option.some.inj h
    exact .refuse ha
  | ok a =>
    cases hstage : w.stage with
    | none =>
      simp only [ha, hstage, Option.ite_none_right_eq_some, Option.some.injEq] at h
      obtain ⟨hguard, rfl⟩ := h
      exact .take ha hstage hguard
    | some stage =>
      simp only [ha, hstage] at h
      cases stage with
      | taken =>
        obtain rfl := Option.some.inj h
        exact .activate ha hstage
      | activated =>
        obtain rfl := Option.some.inj h
        exact .bind ha hstage
      | handing n =>
        cases hch : (call.emission t.board.provider.context?).handed[n]? with
        | some ch =>
          simp only [hch] at h
          obtain rfl := Option.some.inj h
          exact .hand ha hstage hch
        | none =>
          simp only [hch] at h
          obtain rfl := Option.some.inj h
          exact .unbind ha hstage (List.getElem?_eq_none_iff.1 hch) rfl
      | unbound result =>
        obtain rfl := Option.some.inj h
        exact .release ha hstage

theorem step?_isSome (hw : t.workers[i]? = some w) (hfirst : w.calls.head? = some call)
    (hready : t.guard = none ∨ w.stage.isSome) : (t.step? i).isSome := by
  simp only [step?, hw, hfirst, Option.bind_eq_bind, Option.bind_some]
  cases call.admitted with
  | error e => rfl
  | ok a =>
    cases hstage : w.stage with
    | none =>
      have hguard : t.guard = none := by simpa [hstage] using hready
      simp [hguard]
    | some stage =>
      cases stage with
      | taken | activated | unbound result => rfl
      | handing n => cases hch : (call.emission t.board.provider.context?).handed[n]? <;> simp [hch]

end Team

end Terminfo.Padding
