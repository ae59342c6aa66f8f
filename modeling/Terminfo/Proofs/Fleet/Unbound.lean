import Terminfo.Fleet

set_option autoImplicit false

namespace Terminfo

variable {α β : Type}

namespace Switchboard

variable (b : Switchboard)

@[simp]
theorem outlet_activate (a : Address) : (b.activate a).outlet = b.outlet := by
  unfold activate
  split <;> rfl

theorem outlet_release (a : Address) : (b.release a).outlet = b.outlet := by
  unfold release
  split <;> rfl

theorem outlet_setup (h : Host) (term : Option String) (fd : Descriptor) :
    (b.setup h term fd).2.outlet = b.outlet := by
  unfold setup
  cases term.filter (·.toList.contains '\x00') with
  | some name => rfl
  | none =>
    generalize b.deactivate.provider.setup h (term.map Bytes.ofText) fd = r
    obtain ⟨status, provider⟩ := r
    cases status <;> cases hcurrent : provider.current <;> simp only [hcurrent] <;> rfl

theorem outlet_expand (parameters : List Int64) (template : Bytes) :
    (b.expand parameters template).2.outlet = b.outlet := by
  unfold expand
  split <;> rfl

end Switchboard

namespace Guarded

/-- A program that gives the switchboard back with nobody bound to the outlet. -/
def Unbinds (p : Guarded α) : Prop := ∀ b, b.outlet = none → (p.run b).2.outlet = none

theorem unbinds_pure (a : α) : Unbinds (pure a) := fun _ hb ↦ hb

theorem unbinds_holding {f : Switchboard → α × Switchboard}
    (hf : ∀ b, b.outlet = none → (f b).2.outlet = none) : Unbinds (holding f) := hf

theorem Unbinds.bind {p : Guarded α} {f : α → Guarded β} (hp : p.Unbinds)
    (hf : ∀ a, (f a).Unbinds) : Unbinds (p >>= f) := by
  intro b hb
  rw [run_bind]
  exact hf _ _ (hp b hb)

theorem Unbinds.map {p : Guarded α} (hp : p.Unbinds) (f : α → β) :
    Unbinds (do pure (f (← p))) := hp.bind fun _ ↦ unbinds_pure _

end Guarded

namespace Session

open Guarded

variable {s : Session}

theorem unbinds_activated {f : Switchboard → Except Error α × Switchboard}
    (hf : ∀ b, b.outlet = none → (f b).2.outlet = none) : (s.activated f).Unbinds := by
  unfold activated
  cases s.context with
  | none => exact unbinds_pure _
  | some a => exact unbinds_holding fun b hb ↦ hf _ ((b.outlet_activate a).trans hb)

theorem unbinds_lookup (name : String) (kind : Kind) : (s.lookup name kind).Unbinds := by
  unfold lookup
  cases checkName name with
  | error e => exact unbinds_pure _
  | ok _ => exact unbinds_activated fun _ hb ↦ hb

theorem unbinds_expandParameters (template : Bytes) (parameters : List Int64) :
    (s.expandParameters template parameters).Unbinds := by
  unfold expandParameters
  cases checkExpansion template parameters with
  | error e => exact unbinds_pure _
  | ok _ => exact unbinds_activated fun _ hb ↦ (Switchboard.outlet_expand _ _ _).trans hb

theorem unbinds_expandPadding (template : Bytes) (lines : Int32) :
    (s.expandPadding template lines).Unbinds := by
  unfold expandPadding
  cases checkTemplate template with
  | error e => exact unbinds_pure _
  | ok _ => exact unbinds_activated fun _ _ ↦ rfl

theorem unbinds_ask (query : Query) : (s.ask query).Unbinds := by
  cases query with
  | isInitialized | diagnostic | describe => exact unbinds_pure _
  | lookup name kind => exact (unbinds_lookup name kind).map _
  | flag name => exact ((unbinds_lookup name .boolean).map _).map _
  | number name => exact ((unbinds_lookup name .numeric).map _).map _
  | string name => exact ((unbinds_lookup name .string).map _).map _
  | expandParameters template parameters =>
    exact (unbinds_expandParameters template parameters).map _
  | expandPadding template lines => exact (unbinds_expandPadding template lines).map _

theorem unbinds_init (h : Host) (term : Option String) (fd : Descriptor) :
    (s.init h term fd).Unbinds := by
  unfold init
  split
  · exact unbinds_pure _
  · refine (unbinds_holding fun b hb ↦ (b.outlet_setup h term fd).trans hb).bind fun r ↦ ?_
    cases r <;> exact unbinds_pure _

theorem unbinds_establish (h : Host) (term : Option String) (fd : Descriptor) :
    (establish h term fd).Unbinds := by
  refine (unbinds_init h term fd).bind fun r ↦ ?_
  obtain ⟨result, s⟩ := r
  cases result <;> exact unbinds_pure _

theorem unbinds_retire : s.retire.Unbinds := by
  unfold retire
  cases s.context with
  | none => exact unbinds_pure _
  | some a => exact unbinds_holding fun b hb ↦ (b.outlet_release a).trans hb

end Session

namespace Fleet

variable {f : Fleet}

theorem outlet_move (hf : f.board.outlet = none) (m : Move) : (f.move m).2.board.outlet = none := by
  cases m with
  | create name | setEnv name value | resize fd rows cols => exact hf
  | establish name term fd =>
    have hunbinds := Session.unbinds_establish f.host term fd f.board hf
    simp only [move]
    generalize (Session.establish f.host term fd).run f.board = r at hunbinds ⊢
    obtain ⟨result, board⟩ := r
    cases result <;> exact hunbinds
  | init name term fd =>
    simp only [move]
    cases f.session? name with
    | none => exact hf
    | some s => exact s.unbinds_init f.host term fd f.board hf
  | ask name query => exact Session.unbinds_ask query f.board hf
  | retire name | retireHidden name => exact Session.unbinds_retire f.board hf

theorem outlet_moveAll (hf : f.board.outlet = none) (moves : List Move) :
    (f.moveAll moves).board.outlet = none := by
  induction moves generalizing f with
  | nil => exact hf
  | cons m moves ih => exact ih (outlet_move hf m)

end Fleet

end Terminfo
