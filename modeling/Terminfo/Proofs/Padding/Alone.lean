import Terminfo.Proofs.Padding.Team
import Terminfo.Proofs.Session.Owned

set_option autoImplicit false

namespace Terminfo.Padding

variable {b : Switchboard} {t t' t'' : Team} {call : Call} {a : Address}

namespace Call

theorem emission_own (hown : call.padder = .own) (p : Provider) :
    call.emission p.context? = { handed := (p.emitted call.lines call.template).map signed } := by
  unfold emission Provider.emitted
  cases p.context? <;> simp [hown, Padder.own]

theorem run_expandPadding : (call.session.expandPadding call.template call.lines).run b =
    match call.admitted with
    | .error e => (.error e, b)
    | .ok a => (.ok ((b.activate a).pad 0 call.lines call.template).1,
        ((b.activate a).pad 0 call.lines call.template).2) := by
  unfold Session.expandPadding Session.activated admitted
  cases Session.checkTemplate call.template with
  | error e => rfl
  | ok _ => cases call.session.context <;> rfl

end Call

namespace Team

def Walks (t : Team) (n : Nat) (t' : Team) : Prop := t.run? (List.replicate n 0) = some t'

theorem walks_of_step? (h : t.step? 0 = some t') : t.Walks 1 t' := by
  simp [Walks, run?, h]

theorem Walks.trans {n m : Nat} (h : t.Walks n t') (h' : t'.Walks m t'') :
    t.Walks (n + m) t'' := by
  unfold Walks run? at *
  rw [List.replicate_add, List.foldlM_append, h]
  exact h'

def alone (call : Call) (board : Switchboard) (stage : Stage) : Team where
  board := board
  guard := some 0
  workers := [{ calls := [call], stage := some stage }]

theorem walks_binding (ha : call.admitted = .ok a) :
    (start b [[call]]).Walks 3 (alone call ((b.activate a).bindOutlet 0) (.handing 0)) := by
  have htake : (start b [[call]]).step? 0 = some (alone call b .taken) := by
    simp [step?, start, alone, ha, Worker.reach]
  have hactivate : (alone call b .taken).step? 0 = some (alone call (b.activate a) .activated) := by
    simp [step?, alone, ha, Worker.reach]
  have hbind : (alone call (b.activate a) .activated).step? 0 =
      some (alone call ((b.activate a).bindOutlet 0) (.handing 0)) := by
    simp [step?, alone, ha, Worker.reach]
  exact ((walks_of_step? htake).trans (walks_of_step? hactivate)).trans (walks_of_step? hbind)

theorem walks_handing (ha : call.admitted = .ok a) {n : Nat} {rest : List Int32}
    (hrest : (call.emission b.provider.context?).handed.drop n = rest) :
    (alone call b (.handing n)).Walks rest.length
      (alone call (rest.foldl Switchboard.receive b) (.handing (n + rest.length))) := by
  induction rest generalizing b n with
  | nil => rfl
  | cons ch rest ih =>
    have hch : (call.emission b.provider.context?).handed[n]? = some ch := by
      rw [← List.head?_drop, hrest, List.head?_cons]
    have hstep : (alone call b (.handing n)).step? 0 =
        some (alone call (b.receive ch) (.handing (n + 1))) := by
      simp [step?, alone, ha, hch, Worker.reach]
    have hnext : (call.emission (b.receive ch).provider.context?).handed.drop (n + 1) = rest := by
      change (call.emission b.provider.context?).handed.drop (n + 1) = rest
      rw [← List.tail_drop, hrest, List.tail_cons]
    have hwalks := (walks_of_step? hstep).trans (ih hnext)
    rwa [Nat.add_comm 1, Nat.add_right_comm, Nat.add_assoc n] at hwalks

theorem walks_unbinding (ha : call.admitted = .ok a) {n : Nat}
    (hn : (call.emission b.provider.context?).handed.length ≤ n)
    (hfailed : (call.emission b.provider.context?).failed = false) :
    (alone call b (.handing n)).Walks 2
      { board := b.unbindOutlet, workers := [{ calls := [], answers := [.ok b.outlet.collected] }] } := by
  have hend : (call.emission b.provider.context?).handed[n]? = none := List.getElem?_eq_none hn
  have hunbind : (alone call b (.handing n)).step? 0 =
      some (alone call b.unbindOutlet (.unbound (.ok b.outlet.collected))) := by
    simp [step?, alone, ha, hend, hfailed, Worker.reach]
  exact (walks_of_step? hunbind).trans (walks_of_step? (by simp [step?, alone, ha, Worker.answer]))

theorem walks_admitted (ha : call.admitted = .ok a) (hown : call.padder = .own) :
    let padded := (b.activate a).pad 0 call.lines call.template
    (start b [[call]]).Walks (((b.activate a).provider.emitted call.lines call.template).length + 5)
      { board := padded.2, workers := [{ calls := [], answers := [.ok padded.1] }] } := by
  intro padded
  let bound := (b.activate a).bindOutlet 0
  let emitted := bound.provider.emitted call.lines call.template
  have hemission : call.emission bound.provider.context? = { handed := emitted.map signed } :=
    Call.emission_own hown bound.provider
  have hhands := walks_handing (b := bound) (n := 0) ha (congrArg Emission.handed hemission)
  have hfilled : (emitted.map signed).foldl Switchboard.receive bound =
      emitted.foldl Switchboard.emit bound := List.foldl_map
  have hprovider := (Switchboard.provider_foldl_emit emitted bound).1
  rw [hfilled, List.length_map, Nat.zero_add] at hhands
  have hunbinds := walks_unbinding (b := emitted.foldl Switchboard.emit bound) (n := emitted.length) ha
    (by simp [hprovider, hemission]) (by simp [hprovider, hemission])
  have hwalks := ((walks_binding ha).trans hhands).trans hunbinds
  rwa [Nat.add_comm 3, Nat.add_assoc] at hwalks

/-- The single steps of a call make up the whole of it. -/
theorem walks_alone (hb : b.Coherent) (hlive : call.session.Live b) (hown : call.padder = .own) :
    let whole := (call.session.expandPadding call.template call.lines).run b
    (start b [[call]]).Walks (call.left b none)
      { board := whole.2, workers := [{ calls := [], answers := [whole.1] }] } := by
  rw [Call.run_expandPadding]
  cases ha : call.admitted with
  | error e =>
    have hleft : call.left b none = 1 := by simp [Call.left, ha]
    rw [hleft]
    exact walks_of_step? (by simp [step?, start, ha, Worker.answer])
  | ok a =>
    obtain ⟨c, hc⟩ := Provider.exists_held? (hlive a (call.context_of_admitted ha))
    have hcurrent := Switchboard.current_activate hb (Provider.mem_addresses_of_held? hc)
    have hheld := (Switchboard.updates_activate hb hc).held
    have hcontext : (b.activate a).provider.context? = b.provider.held? a :=
      (Provider.context?_eq hcurrent).trans (hheld.trans hc.symm)
    have hleft : call.left b none =
        ((b.activate a).provider.emitted call.lines call.template).length + 5 := by
      simp only [Call.left, ha, ← hcontext, Call.emission_own hown, List.length_map]
    rw [hleft]
    exact walks_admitted ha hown

end Team

end Terminfo.Padding
