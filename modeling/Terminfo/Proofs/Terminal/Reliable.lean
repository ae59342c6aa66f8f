import Terminfo.Proofs.Terminal.Attempt
import Terminfo.Sink.Rationed

set_option autoImplicit false

namespace Terminfo

variable {ω : Type} [Sink ω]

def Call.fails (c : Call) : Prop :=
  match c with
  | .write offered _ => offered ≠ [] ∧ c.stops
  | .flush failure => failure ≠ none

theorem Attempt.received_eq {b : Bytes} {calls : List Call} (h : Attempt b calls)
    (hcalls : ∀ c ∈ calls, ¬ c.fails) : calls.flatMap Call.received = b := by
  induction h with
  | flushed failure => rfl
  | @stopped b outcome hstops =>
    have hb : b = [] := Decidable.byContradiction fun hb ↦
      hcalls _ (List.mem_singleton_self _) ⟨hb, hstops⟩
    cases outcome <;> simp [Call.received, hb]
  | interrupted _ ih => exact ih fun c hc ↦ hcalls c (List.mem_cons_of_mem _ hc)
  | @took b n calls _ ih =>
    rw [List.flatMap_cons, ih fun c hc ↦ hcalls c (List.mem_cons_of_mem _ hc)]
    exact List.take_append_drop n b

namespace Sink

/-- Whatever calls are made of the stream from now on, none of them fails. -/
def Reliable (w : ω) : Prop :=
  ∀ (calls : List Call) (w' : ω), Answers w calls w' → ∀ c ∈ calls, ¬ c.fails

theorem Reliable.after {w w' : ω} {calls : List Call} (hw : Reliable w) (h : Answers w calls w') :
    Reliable w' :=
  fun _ _ hmore c hc ↦ hw _ _ (h.append hmore) c (List.mem_append_right _ hc)

theorem Reliable.write {w : ω} (hw : Reliable w) {b : Bytes} (hb : b ≠ []) :
    ¬ (Call.write b (Sink.write w b).1).stops :=
  fun hstops ↦ hw _ _ (.write b (.nil _)) _ (List.mem_singleton_self _) ⟨hb, hstops⟩

theorem Reliable.flush_eq {w : ω} (hw : Reliable w) : (Sink.flush w).1 = none := by
  have hflush := hw _ _ (.flush (.nil _)) _ (List.mem_singleton_self _)
  exact Decidable.of_not_not hflush

theorem Reliable.writeAll_ok {w : ω} (hw : Reliable w) (b : Bytes) :
    (writeAll w b).1 = .ok () := by
  fun_induction writeAll w b with
  | case1 w => rfl
  | case2 w first rest offered cause h =>
    have hwrite := hw.write (List.cons_ne_nil first rest)
    rw [h] at hwrite
    exact absurd trivial hwrite
  | case3 w first rest offered h _ result w' calls hrest ih =>
    rw [hrest] at ih
    exact ih (hw.after (.write offered (.nil _)))
  | case4 w first rest offered h =>
    have hwrite := hw.write (List.cons_ne_nil first rest)
    rw [h] at hwrite
    exact absurd trivial hwrite
  | case5 w first rest offered n h result w' calls hrest ih =>
    rw [hrest] at ih
    exact ih (hw.after (.write offered (.nil _)))

/-- A delivery to a reliable stream is one write of the whole segment, in portions, and one flush. -/
theorem Reliable.deliver_eq {w : ω} (hw : Reliable w) (segment : Bytes) :
    deliver w segment = (.ok (), (Sink.flush (writeAll w segment).2.1).2,
      { segment, calls := (writeAll w segment).2.2 ++ [.flush none] }) := by
  have hok := hw.writeAll_ok segment
  have hanswers := answers_writeAll w segment
  unfold deliver
  cases hwritten : writeAll w segment with | mk result rest
  obtain ⟨w', calls⟩ := rest
  rw [hwritten] at hok hanswers
  obtain rfl : result = .ok () := hok
  have hnone : (Sink.flush w').1 = none := (hw.after hanswers).flush_eq
  cases hflush : Sink.flush w' with | mk failure w''
  rw [hflush] at hnone
  obtain rfl : failure = none := hnone
  simp only [hflush]

theorem descriptor_of_answers {w w' : ω} {calls : List Call} (h : Answers w calls w') :
    descriptor w' = descriptor w := by
  induction h with
  | nil w => rfl
  | write b _ ih => rw [ih, descriptor_write]
  | flush _ ih => rw [ih, descriptor_flush]

end Sink

namespace Rationed

structure Ample (w : Rationed) : Prop where
  room : w.room = none
  chunk : w.chunk ≠ some 0
  flushFailures : w.flushFailures = 0

variable {w : Rationed}

theorem Ample.eq_nil_of_portion (hw : w.Ample) {b : Bytes} (h : w.portion b.length = 0) :
    b = [] := by
  cases hc : w.chunk with
  | none => simpa [portion, hw.room, hc] using h
  | some n =>
    have hn : n ≠ 0 := fun he ↦ hw.chunk (by rw [hc, he])
    simpa [portion, hw.room, hc, hn] using h

theorem Ample.write (hw : w.Ample) (b : Bytes) :
    ¬ (Call.write b (w.write b).1).fails ∧ (w.write b).2.Ample := by
  unfold Rationed.write
  split
  · exact ⟨And.right, hw.room, hw.chunk, hw.flushFailures⟩
  · split
    · rename_i h
      exact ⟨fun hfails ↦ hfails.1 (hw.eq_nil_of_portion h.1), hw⟩
    · refine ⟨fun ⟨hb, hstops⟩ ↦ ?_, by simp [hw.room], hw.chunk, hw.flushFailures⟩
      cases hn : w.portion b.length with
      | zero => exact hb (hw.eq_nil_of_portion hn)
      | succ n =>
        rw [hn] at hstops
        exact hstops

theorem Ample.flush (hw : w.Ample) : w.flush = (none, w) := by
  simp [Rationed.flush, hw.flushFailures]

theorem Ample.reliable (hw : w.Ample) : Sink.Reliable w := by
  intro calls w' h
  induction h with
  | nil w => simp
  | @write w w' calls b h ih =>
    obtain ⟨hcall, hkept⟩ := hw.write b
    exact List.forall_mem_cons.2 ⟨hcall, ih hkept⟩
  | @flush w w' calls h ih =>
    have hkept : Sink.flush w = (none, w) := hw.flush
    rw [hkept] at ih ⊢
    exact List.forall_mem_cons.2 ⟨fun hfails ↦ hfails rfl, ih hw⟩

end Rationed

end Terminfo
