import Terminfo.Proofs.Fleet.Ownership
import Terminfo.Proofs.Fleet.Unbound
import Terminfo.Proofs.Padding.Alone

set_option autoImplicit false

namespace Terminfo.Padding

variable {origin board : Switchboard} {t t' : Team} {i : Nat} {w w' : Worker} {call : Call}
  {a : Address} {stage : Stage} {result : Except Error Bytes}

theorem getElem?_set_cases {α : Type} {l : List α} {j : Nat} {x y : α}
    (h : (l.set i x)[j]? = some y) : j = i ∧ y = x ∨ j ≠ i ∧ l[j]? = some y := by
  by_cases hj : j = i
  · subst hj
    obtain ⟨hlt, rfl⟩ := List.getElem?_eq_some_iff.1 h
    exact .inl ⟨rfl, List.getElem_set_self hlt⟩
  · exact .inr ⟨hj, by rwa [List.getElem?_set_ne (Ne.symm hj)] at h⟩

namespace Worker

structure Within (w : Worker) (call : Call) (a : Address) (stage : Stage) : Prop where
  first : w.calls.head? = some call
  admitted : call.admitted = .ok a
  stage : w.stage = some stage

theorem Within.reach (h : w.Within call a stage) (stage' : Stage) :
    (w.reach stage').Within call a stage' := ⟨h.first, h.admitted, rfl⟩

theorem calls_of_left (h : w.left origin = 0) : w.calls = [] := by
  cases hcalls : w.calls with
  | nil => rfl
  | cons call rest =>
    have hpos := call.left_pos origin w.stage
    simp only [left, hcalls] at h
    omega

theorem account_answer (hfirst : w.calls.head? = some call) (hresult : result = call.outcome origin) :
    (w.answer result).account origin = w.account origin := by
  obtain ⟨rest, hcalls⟩ := List.head?_eq_some_iff.1 hfirst
  simp [account, answer, hcalls, hresult]

theorem left_of_idle (hstage : w.stage = none) :
    w.left origin = Call.turns origin w.calls := by
  unfold left
  cases w.calls with
  | nil => rfl
  | cons call rest => simp [hstage, Call.turns]

theorem left_reach (hfirst : w.calls.head? = some call)
    (hcall : call.left origin (some stage) + 1 = call.left origin w.stage) :
    (w.reach stage).left origin + 1 = w.left origin := by
  obtain ⟨rest, hcalls⟩ := List.head?_eq_some_iff.1 hfirst
  simp only [left, reach, hcalls, ← hcall]
  omega

theorem left_answer (hfirst : w.calls.head? = some call) (hcall : call.left origin w.stage = 1) :
    (w.answer result).left origin + 1 = w.left origin := by
  obtain ⟨rest, hcalls⟩ := List.head?_eq_some_iff.1 hfirst
  rw [left_of_idle rfl, left, hcalls]
  simp only [answer, hcalls, List.tail_cons, hcall]
  omega

end Worker

/-- What has become of the switchboard and of the results when a call has come to a stage. While
characters are handed over, the outlet holds those of this call and no other ones. -/
def Call.Stands (call : Call) (origin : Switchboard) (a : Address) (i : Nat) (b : Switchboard) :
    Stage → Prop
  | .taken => b.outlet = none
  | .activated => b.provider.current = some a ∧ b.outlet = none
  | .handing n =>
    let handed := (call.emission (origin.provider.held? a)).handed
    b.provider.current = some a ∧ n ≤ handed.length ∧
      b.outlet = some { caller := i, buffer := ((handed.take n).map lowByte).reverse }
  | .unbound result => b.outlet = none ∧ result = (call.emission (origin.provider.held? a)).result

namespace Team

/-- The outlet is bound for none but the thread that has the guard, and that thread has come as far as
the switchboard shows. -/
structure Custody (origin : Switchboard) (t : Team) : Prop where
  coherent : t.board.Coherent
  held : ∀ a, t.board.provider.held? a = origin.provider.held? a
  live : ∀ {i : Nat} {w : Worker}, t.workers[i]? = some w → ∀ call ∈ w.calls, call.session.Live origin
  free : t.guard = none → t.board.outlet = none
  idle : ∀ {i : Nat} {w : Worker}, t.workers[i]? = some w → t.guard ≠ some i → w.stage = none
  holds : ∀ {i : Nat}, t.guard = some i → ∃ w call a stage, t.workers[i]? = some w ∧
    w.Within call a stage ∧ call.Stands origin a i t.board stage

theorem custody_start (hb : origin.Coherent) (houtlet : origin.outlet = none)
    {jobs : List (List Call)} (hlive : ∀ job ∈ jobs, ∀ call ∈ job, call.session.Live origin) :
    (start origin jobs).Custody origin := by
  have hworkers : ∀ {i : Nat} {w : Worker}, (start origin jobs).workers[i]? = some w →
      ∃ job ∈ jobs, ({ calls := job } : Worker) = w := fun {i w} hw ↦ by
    simpa [start] using List.mem_of_getElem? hw
  refine ⟨hb, fun _ ↦ rfl, fun hw ↦ ?_, fun _ ↦ houtlet, fun hw _ ↦ ?_,
    fun hguard ↦ ?_⟩
  · obtain ⟨job, hjob, rfl⟩ := hworkers hw
    exact hlive job hjob
  · obtain ⟨job, hjob, rfl⟩ := hworkers hw
    rfl
  · simp [start] at hguard

namespace Custody

variable (h : t.Custody origin)

include h

theorem holder (hw : t.workers[i]? = some w) (hguard : t.guard = some i) :
    ∃ call a stage, w.Within call a stage ∧ call.Stands origin a i t.board stage := by
  obtain ⟨w', call, a, stage, hw', hholder⟩ := h.holds hguard
  obtain rfl : w = w' := Option.some.inj (hw.symm.trans hw')
  exact ⟨call, a, stage, hholder⟩

theorem guard_of_stage (hw : t.workers[i]? = some w) (hstage : w.stage.isSome) :
    t.guard = some i := by
  by_contra hguard
  simp [h.idle hw hguard] at hstage

theorem within (hw : t.workers[i]? = some w) (hfirst : w.calls.head? = some call)
    (ha : call.admitted = .ok a) (hstage : w.stage = some stage) :
    t.guard = some i ∧ w.Within call a stage ∧ call.Stands origin a i t.board stage := by
  have hguard : t.guard = some i := h.guard_of_stage hw (by simp [hstage])
  obtain ⟨call', a', stage', hwithin, hstands⟩ := h.holder hw hguard
  obtain rfl : call = call' := Option.some.inj (hfirst.symm.trans hwithin.first)
  obtain rfl : a = a' := Except.ok.inj (ha.symm.trans hwithin.admitted)
  obtain rfl : stage = stage' := Option.some.inj (hstage.symm.trans hwithin.stage)
  exact ⟨hguard, hwithin, hstands⟩

theorem emission_eq (hcurrent : t.board.provider.current = some a) :
    call.emission t.board.provider.context? = call.emission (origin.provider.held? a) := by
  rw [Provider.context?_eq hcurrent, h.held]

/-- Only a thread that finds the guard free or has it may go on with a call. -/
theorem reach (hw : t.workers[i]? = some w) (hwithin : (w.reach stage).Within call a stage)
    (hguard : ∀ j, t.guard = some j → j = i) (hb : board.Coherent)
    (hheld : ∀ x, board.provider.held? x = t.board.provider.held? x)
    (hstands : call.Stands origin a i board stage) :
    Custody origin { board, guard := some i, workers := t.workers.set i (w.reach stage) } := by
  have hlt : i < t.workers.length := (List.getElem?_eq_some_iff.1 hw).1
  refine ⟨hb, fun x ↦ (hheld x).trans (h.held x), fun {j v} hv ↦ ?_, fun hfree ↦ (nomatch hfree),
    fun {j v} hv hj ↦ ?_, fun {j} hj ↦ ?_⟩
  · rcases getElem?_set_cases hv with ⟨-, rfl⟩ | ⟨-, hv⟩
    · exact fun call hcall ↦ h.live hw call hcall
    · exact h.live hv
  · rcases getElem?_set_cases hv with ⟨rfl, rfl⟩ | ⟨hne, hv⟩
    · exact absurd rfl hj
    · exact h.idle hv fun hold ↦ hne (hguard j hold)
  · obtain rfl : i = j := Option.some.inj hj
    exact ⟨w.reach stage, call, a, stage, List.getElem?_set_self hlt, hwithin, hstands⟩

theorem answer (hw : t.workers[i]? = some w) {guard : Option Nat}
    (hfree : guard = none → t.board.outlet = none)
    (hguard : ∀ j, guard = some j → j ≠ i ∧ t.guard = some j)
    (hidle : ∀ j, j ≠ i → t.guard = some j → guard = some j) :
    Custody origin { t with guard, workers := t.workers.set i (w.answer result) } := by
  refine ⟨h.coherent, h.held, fun {j v} hv ↦ ?_, hfree, fun {j v} hv hj ↦ ?_, fun {j} hj ↦ ?_⟩
  · rcases getElem?_set_cases hv with ⟨-, rfl⟩ | ⟨-, hv⟩
    · exact fun call hcall ↦ h.live hw call (List.mem_of_mem_tail hcall)
    · exact h.live hv
  · rcases getElem?_set_cases hv with ⟨-, rfl⟩ | ⟨hne, hv⟩
    · rfl
    · exact h.idle hv fun hold ↦ hj (hidle j hne hold)
  · obtain ⟨hne, hold⟩ := hguard j hj
    obtain ⟨w', call, a, stage, hw', hwithin, hstands⟩ := h.holds hold
    exact ⟨w', call, a, stage, by rwa [List.getElem?_set_ne (Ne.symm hne)], hwithin, hstands⟩

theorem advance (hw : t.workers[i]? = some w) (hguard : t.guard = some i)
    (hwithin : w.Within call a stage) {stage' : Stage} (hb : board.Coherent)
    (hheld : ∀ x, board.provider.held? x = t.board.provider.held? x)
    (hstands : call.Stands origin a i board stage') :
    Custody origin { t with board, workers := t.workers.set i (w.reach stage') } := by
  have hreach := h.reach hw (hwithin.reach stage')
    (fun j hj ↦ Option.some.inj (hj.symm.trans hguard)) hb hheld hstands
  rwa [← hguard] at hreach

theorem advance_outlet (hw : t.workers[i]? = some w) (hguard : t.guard = some i)
    (hwithin : w.Within call a stage) {outlet : Outlet} {stage' : Stage}
    (hstands : call.Stands origin a i { t.board with outlet } stage') :
    Custody origin
      { t with board := { t.board with outlet }, workers := t.workers.set i (w.reach stage') } :=
  h.advance hw hguard hwithin ⟨h.coherent.orderly, h.coherent.marker_eq⟩ (fun _ ↦ rfl) hstands

theorem turn (hw : t.workers[i]? = some w) (hfirst : w.calls.head? = some call)
    (hturn : t.Turn i w call t') : t'.Custody origin := by
  cases hturn with
  | @refuse e he =>
    -- a call that is refused is not the one that has the guard
    have hguard : t.guard ≠ some i := fun hguard ↦ by
      obtain ⟨call', a, stage, hwithin, -⟩ := h.holder hw hguard
      obtain rfl : call = call' := Option.some.inj (hfirst.symm.trans hwithin.first)
      exact nomatch he.symm.trans hwithin.admitted
    refine h.answer hw h.free (fun j hj ↦ ⟨?_, hj⟩) fun j _ hj ↦ hj
    rintro rfl
    exact hguard hj
  | @take a ha hstage hguard =>
    exact h.reach hw ⟨hfirst, ha, rfl⟩ (fun j hj ↦ nomatch hguard.symm.trans hj) h.coherent
      (fun _ ↦ rfl) (h.free hguard)
  | @activate a ha hstage =>
    obtain ⟨hguard, hwithin, houtlet⟩ := h.within hw hfirst ha hstage
    have hmem : a ∈ t.board.provider.addresses := by
      rw [← Provider.held?_isSome_iff, h.held, Provider.held?_isSome_iff]
      exact h.live hw call (List.mem_of_mem_head? hfirst) a (call.context_of_admitted ha)
    have hadopt := Switchboard.activate_eq_adopt h.coherent hmem
    refine h.advance hw hguard hwithin (hadopt ▸ h.coherent.adopt hmem) (fun x ↦ ?_)
      ⟨Switchboard.current_activate h.coherent hmem, (Switchboard.outlet_activate _ a).trans houtlet⟩
    rw [hadopt]
    rfl
  | @bind a ha hstage =>
    obtain ⟨hguard, hwithin, hcurrent, -⟩ := h.within hw hfirst ha hstage
    exact h.advance_outlet hw hguard hwithin ⟨hcurrent, Nat.zero_le _, rfl⟩
  | @hand a n ch ha hstage hch =>
    obtain ⟨hguard, hwithin, hcurrent, -, houtlet⟩ := h.within hw hfirst ha hstage
    rw [h.emission_eq hcurrent] at hch
    refine h.advance_outlet hw hguard hwithin ⟨hcurrent, (List.getElem?_eq_some_iff.1 hch).1, ?_⟩
    simp [houtlet, Outlet.receive, List.take_add_one, hch]
  | @unbind a n result ha hstage hlen hresult =>
    obtain ⟨hguard, hwithin, hcurrent, hn, houtlet⟩ := h.within hw hfirst ha hstage
    rw [h.emission_eq hcurrent] at hlen hresult
    refine h.advance_outlet hw hguard hwithin ⟨rfl, hresult.trans ?_⟩
    simp [houtlet, Outlet.collected, List.take_of_length_le hlen, Emission.result]
  | @release a result ha hstage =>
    obtain ⟨hguard, -, houtlet, -⟩ := h.within hw hfirst ha hstage
    exact h.answer hw (fun _ ↦ houtlet) (fun j hj ↦ nomatch hj) fun j hne hj ↦
      absurd (Option.some.inj (hj.symm.trans hguard)) hne

theorem turn_worker (hw : t.workers[i]? = some w) (hfirst : w.calls.head? = some call)
    (hturn : t.Turn i w call t') : ∃ w', t'.workers = t.workers.set i w' ∧
      w'.account origin = w.account origin ∧ w'.left origin + 1 = w.left origin := by
  cases hturn with
  | @refuse e he =>
    refine ⟨_, rfl, Worker.account_answer hfirst ?_, Worker.left_answer hfirst ?_⟩
    · simp [Call.outcome, he, Except.bind]
    · simp [Call.left, he]
  | @take a ha hstage hguard =>
    refine ⟨_, rfl, rfl, Worker.left_reach hfirst ?_⟩
    simp [Call.left, ha, hstage]
  | @activate a ha hstage =>
    refine ⟨_, rfl, rfl, Worker.left_reach hfirst ?_⟩
    simp [Call.left, ha, hstage]
  | @bind a ha hstage =>
    refine ⟨_, rfl, rfl, Worker.left_reach hfirst ?_⟩
    simp [Call.left, ha, hstage]
  | @hand a n ch ha hstage hch =>
    obtain ⟨-, -, hcurrent, -, -⟩ := h.within hw hfirst ha hstage
    rw [h.emission_eq hcurrent] at hch
    have hlt := (List.getElem?_eq_some_iff.1 hch).1
    refine ⟨_, rfl, rfl, Worker.left_reach hfirst ?_⟩
    simp only [Call.left, ha, hstage]
    omega
  | @unbind a n result ha hstage hlen hresult =>
    obtain ⟨-, -, hcurrent, -, -⟩ := h.within hw hfirst ha hstage
    rw [h.emission_eq hcurrent] at hlen
    refine ⟨_, rfl, rfl, Worker.left_reach hfirst ?_⟩
    simp only [Call.left, ha, hstage]
    omega
  | @release a result ha hstage =>
    obtain ⟨-, -, -, hresult⟩ := h.within hw hfirst ha hstage
    refine ⟨_, rfl, Worker.account_answer hfirst ?_, Worker.left_answer hfirst ?_⟩
    · simp [Call.outcome, ha, Except.bind, hresult]
    · simp [Call.left, ha, hstage]

theorem ended (hw : t.workers[i]? = some w) (hleft : w.left origin = 0) :
    w = { calls := [], answers := w.account origin } := by
  have hcalls : w.calls = [] := Worker.calls_of_left hleft
  have hstage : w.stage = none := h.idle hw fun hguard ↦ by
    obtain ⟨call, a, stage, hwithin, -⟩ := h.holder hw hguard
    simpa [hcalls] using hwithin.first
  obtain ⟨calls, stage, answers⟩ := w
  obtain rfl : calls = [] := hcalls
  obtain rfl : stage = none := hstage
  simp [Worker.account]

theorem exists_step (hw : t.workers[i]? = some w) (hcalls : w.calls ≠ []) :
    ∃ j, (t.step? j).isSome := by
  cases hguard : t.guard with
  | none =>
    obtain ⟨call, rest, hcalls⟩ := List.exists_cons_of_ne_nil hcalls
    exact ⟨i, step?_isSome hw (by rw [hcalls, List.head?_cons]) (.inl hguard)⟩
  | some j =>
    obtain ⟨w', call, a, stage, hw', hwithin, -⟩ := h.holds hguard
    exact ⟨j, step?_isSome hw' hwithin.first (.inr (by simp [hwithin.stage]))⟩

theorem outlet_eq {binding : Binding} (hbinding : t.board.outlet = some binding) :
    t.guard = some binding.caller ∧ ∃ w call a n, t.workers[binding.caller]? = some w ∧
      w.Within call a (.handing n) ∧ binding.buffer.reverse =
        ((call.emission (origin.provider.held? a)).handed.take n).map lowByte := by
  cases hguard : t.guard with
  | none => simp [h.free hguard] at hbinding
  | some i =>
    obtain ⟨w, call, a, stage, hw, hwithin, hstands⟩ := h.holds hguard
    cases stage with
    | taken => exact nomatch hstands.symm.trans hbinding
    | activated => exact nomatch hstands.2.symm.trans hbinding
    | unbound result => exact nomatch hstands.1.symm.trans hbinding
    | handing n =>
      obtain ⟨-, -, houtlet⟩ := hstands
      obtain rfl := Option.some.inj (houtlet.symm.trans hbinding)
      exact ⟨rfl, w, call, a, n, hw, hwithin, List.reverse_reverse _⟩

end Custody

structure Continues (origin : Switchboard) (t : Team) (schedule : List Nat) (t' : Team) : Prop where
  custody : t'.Custody origin
  accounts : t'.workers.map (·.account origin) = t.workers.map (·.account origin)
  left : ∀ i, t'.left origin i + schedule.count i = t.left origin i

theorem Custody.step (h : t.Custody origin) (hstep : t.step? i = some t') :
    t.Continues origin [i] t' := by
  obtain ⟨w, call, hw, hfirst, hturn⟩ := turn_of_step? hstep
  obtain ⟨w', hworkers, haccount, hleft⟩ := h.turn_worker hw hfirst hturn
  refine ⟨h.turn hw hfirst hturn, ?_, fun j ↦ ?_⟩
  · obtain ⟨hlt, rfl⟩ := List.getElem?_eq_some_iff.1 hw
    rw [hworkers, List.map_set, haccount, ← List.map_set, List.set_getElem_self]
  · by_cases hj : j = i
    · subst hj
      have hlt : j < t.workers.length := (List.getElem?_eq_some_iff.1 hw).1
      simp only [left, hworkers, List.getElem?_set_self hlt, hw, Option.map_some, Option.getD_some,
        List.count_singleton_self, hleft]
    · simp [left, hworkers, List.getElem?_set_ne (Ne.symm hj), Ne.symm hj]

theorem Custody.run (h : t.Custody origin) {schedule : List Nat}
    (hrun : t.run? schedule = some t') : t.Continues origin schedule t' := by
  induction schedule generalizing t with
  | nil =>
    obtain rfl := Option.some.inj hrun
    exact ⟨h, rfl, fun _ ↦ rfl⟩
  | cons i schedule ih =>
    rw [run?, List.foldlM_cons] at hrun
    obtain ⟨next, hstep, hrest⟩ := Option.bind_eq_some_iff.1 hrun
    have hfirst := h.step hstep
    have hlast := ih hfirst.custody hrest
    refine ⟨hlast.custody, hlast.accounts.trans hfirst.accounts, fun j ↦ ?_⟩
    rw [← List.singleton_append, List.count_append, ← hfirst.left j, ← hlast.left j]
    omega

theorem accounts_start (b : Switchboard) (jobs : List (List Call)) :
    (start b jobs).workers.map (·.account b) = jobs.map (·.map (·.outcome b)) := by
  simp [start, Worker.account]

theorem left_start (b : Switchboard) {jobs : List (List Call)} {job : List Call}
    (hjob : jobs[i]? = some job) : (start b jobs).left b i = Call.turns b job := by
  simp [left, start, hjob, Worker.left_of_idle]

end Team

open Team

/-- No output gets from one call into another, in whichever order the threads make their single steps.
A call comes to what the provider has handed over for it alone, from the first character on, or to the
failure of just this call. The outlet is bound only while the call that bound it has the guard, and it
has the characters of that call so far; whenever the guard is free, nothing is bound. No thread waits
forever for another one, and each comes to its end after as many steps as its own calls have. -/
theorem output_never_leaks (host : Host) (allocator : Allocator) (moves : List Move)
    (jobs : List (List Call)) (schedule : List Nat) (t : Team) :
    let b := ((Fleet.start host allocator).moveAll moves).board
    (∀ job ∈ jobs, ∀ call ∈ job, call.session.Live b) →
      (start b jobs).run? schedule = some t →
        t.workers.map (·.account b) = jobs.map (·.map (·.outcome b)) ∧
          ((t.guard = none → t.board.outlet = none) ∧
            (∀ binding, t.board.outlet = some binding → t.guard = some binding.caller ∧
              ∃ w call a n, t.workers[binding.caller]? = some w ∧ w.Within call a (.handing n) ∧
                binding.buffer.reverse =
                  ((call.emission (b.provider.held? a)).handed.take n).map lowByte) ∧
            ∀ i w, t.workers[i]? = some w → w.stage.isSome → t.guard = some i) ∧
          ((∀ w ∈ t.workers, w.calls ≠ [] → ∃ i, (t.step? i).isSome) ∧
            ∀ i job, jobs[i]? = some job →
              schedule.count i ≤ Call.turns b job ∧
                (schedule.count i = Call.turns b job →
                  t.workers[i]? = some { calls := [], answers := job.map (·.outcome b) })) ∧
          ∀ call : Call, call.padder = .own → call.session.Live b →
            let whole := (call.session.expandPadding call.template call.lines).run b
            call.outcome b = whole.1 ∧
              (start b [[call]]).Walks (call.left b none)
                { board := whole.2, workers := [{ calls := [], answers := [whole.1] }] } := by
  intro b hlive hrun
  have hf := (Fleet.coherent_start host allocator).moveAll moves
  have houtlet : b.outlet = none := Fleet.outlet_moveAll rfl moves
  have hstart := custody_start hf.board houtlet hlive
  obtain ⟨hcustody, haccounts, hleft⟩ := hstart.run hrun
  rw [accounts_start] at haccounts
  refine ⟨haccounts, ⟨hcustody.free, fun _ ↦ hcustody.outlet_eq, fun i w ↦ hcustody.guard_of_stage⟩,
    ⟨?_, ?_⟩, ?_⟩
  · intro w hw hcalls
    obtain ⟨i, hi⟩ := List.mem_iff_getElem?.1 hw
    exact hcustody.exists_step hi hcalls
  · intro i job hjob
    have hcount : t.left b i + schedule.count i = Call.turns b job :=
      (hleft i).trans (left_start b hjob)
    refine ⟨by omega, fun hall ↦ ?_⟩
    obtain ⟨w, hw, haccount⟩ : ∃ w, t.workers[i]? = some w ∧
        w.account b = job.map (·.outcome b) := by
      have hi := congrArg (·[i]?) haccounts
      simpa [hjob] using hi
    have hzero : t.left b i = 0 := by omega
    have hended := hcustody.ended hw (by simpa [Team.left, hw] using hzero)
    rw [hw, hended, haccount]
  · intro call hown hcall whole
    have hwalks := walks_alone hf.board hcall hown
    have halone : ∀ job ∈ [[call]], ∀ call' ∈ job, call'.session.Live b := by simpa using hcall
    have haccounts := ((custody_start hf.board houtlet halone).run hwalks).accounts
    rw [accounts_start] at haccounts
    have hwhole : whole.1 = call.outcome b := by simpa [Worker.account] using haccounts
    exact ⟨hwhole.symm, hwalks⟩

theorem output_never_leaks_past_failure :
    let host : Host := { entries := [("x", some {})] }
    let b := ((Fleet.start host .ascending).moveAll
      [.establish "s" (some "x") 1, .establish "v" (some "x") 1]).board
    let s : Session := { context := some 1 }
    let v : Session := { context := some 2 }
    let failing : Padder := fun _ _ _ ↦ { handed := [65], failed := true }
    let slow : List Call := [{ session := s, template := [200, 36], lines := 1 }]
    let busy : List Call :=
      [{ session := v, template := [66], lines := 1, padder := failing },
        { session := v, template := [67], lines := 1 },
        { session := v, template := [0], lines := 1 }]
    let schedule := List.replicate 12 1 ++ [0, 0, 0, 0, 1]
    ∃ t, (start b [slow, busy]).run? schedule = some t ∧
      t.board.outlet = some { caller := 0, buffer := [200] } ∧ t.guard = some 0 ∧
      t.workers[1]? = some { calls := [], answers := [.error .paddingFailed, .ok [67],
        .error (.invalidArgument .zeroInTemplate)] } := by
  intro host b s v failing slow busy schedule
  have hsome : ((start b [slow, busy]).run? schedule).map (·.board.outlet) =
      some (some { caller := 0, buffer := [200] }) := by decide +kernel
  obtain ⟨t, hrun, houtlet⟩ := Option.map_eq_some_iff.1 hsome
  have hs : s.Live b := fun a ha ↦ by
    obtain rfl : 1 = a := Option.some.inj ha
    decide +kernel
  have hv : v.Live b := fun a ha ↦ by
    obtain rfl : 2 = a := Option.some.inj ha
    decide +kernel
  have hlive : ∀ job ∈ [slow, busy], ∀ call ∈ job, call.session.Live b := by
    simp [slow, busy, hs, hv]
  obtain ⟨-, ⟨-, hbound, -⟩, ⟨-, hends⟩, -⟩ := output_never_leaks host .ascending
    [.establish "s" (some "x") 1, .establish "v" (some "x") 1] [slow, busy] schedule t hlive hrun
  have hanswers : busy.map (·.outcome b) = [.error .paddingFailed, .ok [67],
      .error (.invalidArgument .zeroInTemplate)] := by decide +kernel
  refine ⟨t, hrun, houtlet, (hbound _ houtlet).1, ?_⟩
  rw [← hanswers]
  exact (hends 1 busy rfl).2 (by decide +kernel)

end Terminfo.Padding
