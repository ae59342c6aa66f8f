import Terminfo.Switchboard

set_option autoImplicit false

namespace Terminfo

variable {α β γ : Type}

/-- A program that takes hold of the switchboard any number of times. During one holding nothing
else happens to the switchboard; between two of them anything may. -/
inductive Guarded (α : Type)
  | done (a : α)
  /-- The program that follows may depend on what the switchboard was when it was taken. -/
  | hold (effect : Switchboard → Switchboard) (next : Switchboard → Guarded α)

namespace Guarded

def run : Guarded α → Switchboard → α × Switchboard
  | .done a, b => (a, b)
  | .hold effect next, b => (next b).run (effect b)

def bind : Guarded α → (α → Guarded β) → Guarded β
  | .done a, f => f a
  | .hold effect next, f => .hold effect fun b ↦ (next b).bind f

instance : Monad Guarded where
  pure := .done
  bind := bind

def holding (f : Switchboard → α × Switchboard) : Guarded α :=
  .hold (fun b ↦ (f b).2) fun b ↦ .done (f b).1

theorem bind_done (p : Guarded α) : p.bind .done = p := by
  induction p with
  | done a => rfl
  | hold effect next ih => exact congrArg _ (funext ih)

theorem bind_bind (p : Guarded α) (f : α → Guarded β) (g : β → Guarded γ) :
    (p.bind f).bind g = p.bind fun a ↦ (f a).bind g := by
  induction p with
  | done a => rfl
  | hold effect next ih => exact congrArg _ (funext ih)

instance : LawfulMonad Guarded :=
  LawfulMonad.mk' Guarded bind_done (fun _ _ ↦ rfl) bind_bind

@[simp]
theorem run_pure (a : α) (b : Switchboard) : (pure a : Guarded α).run b = (a, b) := rfl

@[simp]
theorem run_bind (p : Guarded α) (f : α → Guarded β) (b : Switchboard) :
    (p >>= f).run b = (f (p.run b).1).run (p.run b).2 := by
  show (p.bind f).run b = _
  induction p generalizing b with
  | done a => rfl
  | hold effect next ih => exact ih b (effect b)

@[simp]
theorem run_holding (f : Switchboard → α × Switchboard) (b : Switchboard) :
    (holding f).run b = f b := rfl

end Guarded

end Terminfo
