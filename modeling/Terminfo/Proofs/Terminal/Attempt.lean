import Terminfo.Terminal

set_option autoImplicit false

namespace Terminfo

variable {ω : Type} [Sink ω]

def Call.stops : Call → Prop
  | .write _ (.failed _) | .write _ (.took 0) => True
  | _ => False

namespace Sink

inductive Answers : ω → List Call → ω → Prop
  | nil (w : ω) : Answers w [] w
  | write {w w' : ω} {calls : List Call} (b : Bytes) (h : Answers (write w b).2 calls w') :
      Answers w (.write b (write w b).1 :: calls) w'
  | flush {w w' : ω} {calls : List Call} (h : Answers (flush w).2 calls w') :
      Answers w (.flush (flush w).1 :: calls) w'

theorem Answers.append {w w' w'' : ω} {calls more : List Call} (h : Answers w calls w')
    (h' : Answers w' more w'') : Answers w (calls ++ more) w'' := by
  induction h with
  | nil w => exact h'
  | write b _ ih => exact .write b (ih h')
  | flush _ ih => exact .flush (ih h')

end Sink

/-- The calls that bring a segment to a stream. Each of them offers all that is left. -/
inductive Attempt : Bytes → List Call → Prop
  | flushed (failure : Option IoError) : Attempt [] [.flush failure]
  | stopped {b : Bytes} {outcome : WriteOutcome} (h : (Call.write b outcome).stops) :
      Attempt b [.write b outcome]
  | interrupted {b : Bytes} {calls : List Call} (h : Attempt b calls) :
      Attempt b (.write b .interrupted :: calls)
  | took {b : Bytes} {n : Nat} {calls : List Call} (h : Attempt (b.drop n) calls) :
      Attempt b (.write b (.took n) :: calls)

namespace Attempt

variable {b : Bytes} {calls : List Call}

theorem received (h : Attempt b calls) : calls.flatMap Call.received <+: b := by
  induction h with
  | flushed failure => exact List.nil_prefix
  | @stopped b outcome h =>
    cases outcome with
    | took n =>
      cases n with
      | zero => simp [Call.received]
      | succ n => exact h.elim
    | interrupted => exact h.elim
    | failed cause => simp [Call.received]
  | interrupted _ ih => simpa [Call.received] using ih
  | @took b n calls _ ih =>
    have hsplit := (List.prefix_append_right_inj (b.take n)).2 ih
    rwa [List.take_append_drop] at hsplit

theorem whole (h : Attempt b calls) :
    calls.flatMap Call.received = b ∨ ∃ c ∈ calls, c.stops := by
  induction h with
  | flushed failure => exact .inl rfl
  | stopped h => exact .inr ⟨_, List.mem_singleton_self _, h⟩
  | interrupted _ ih =>
    rcases ih with hall | ⟨c, hc, hstops⟩
    · exact .inl hall
    · exact .inr ⟨c, List.mem_cons_of_mem _ hc, hstops⟩
  | @took b n calls _ ih =>
    rcases ih with hall | ⟨c, hc, hstops⟩
    · left
      rw [List.flatMap_cons, hall]
      exact List.take_append_drop n b
    · exact .inr ⟨c, List.mem_cons_of_mem _ hc, hstops⟩

theorem received_of_made (h : Attempt b calls) {made : List Call} (hmade : made <+: calls) :
    made.flatMap Call.received <+: b := by
  obtain ⟨rest, rfl⟩ := hmade
  refine List.IsPrefix.trans ?_ h.received
  rw [List.flatMap_append]
  exact List.prefix_append _ _

end Attempt

namespace Sink

theorem answers_writeAll (w : ω) (b : Bytes) :
    Answers w (writeAll w b).2.2 (writeAll w b).2.1 := by
  fun_induction writeAll w b with
  | case1 w => exact .nil w
  | case2 w first rest offered cause h =>
    rw [← h]
    exact .write offered (.nil _)
  | case3 w first rest offered h _ result w' calls hrest ih =>
    rw [hrest] at ih
    rw [← h]
    exact .write offered ih
  | case4 w first rest offered h =>
    rw [← h]
    exact .write offered (.nil _)
  | case5 w first rest offered n h result w' calls hrest ih =>
    rw [hrest] at ih
    rw [← h]
    exact .write offered ih

theorem attempt_writeAll (w : ω) (b : Bytes) :
    ((writeAll w b).1 = .ok () ∧ ∀ f, Attempt b ((writeAll w b).2.2 ++ [.flush f])) ∨
      ((∃ cause, (writeAll w b).1 = .error cause) ∧ Attempt b (writeAll w b).2.2) := by
  fun_induction writeAll w b with
  | case1 w => exact .inl ⟨rfl, .flushed⟩
  | case2 w first rest offered cause h => exact .inr ⟨⟨_, rfl⟩, .stopped trivial⟩
  | case3 w first rest offered h _ result w' calls hrest ih =>
    rw [hrest] at ih
    rcases ih with ⟨hok, hattempt⟩ | ⟨herror, hattempt⟩
    · exact .inl ⟨hok, fun f ↦ .interrupted (hattempt f)⟩
    · exact .inr ⟨herror, .interrupted hattempt⟩
  | case4 w first rest offered h => exact .inr ⟨⟨_, rfl⟩, .stopped trivial⟩
  | case5 w first rest offered n h result w' calls hrest ih =>
    rw [hrest] at ih
    rcases ih with ⟨hok, hattempt⟩ | ⟨herror, hattempt⟩
    · exact .inl ⟨hok, fun f ↦ .took (hattempt f)⟩
    · exact .inr ⟨herror, .took hattempt⟩

theorem segment_deliver (w : ω) (segment : Bytes) : (deliver w segment).2.2.segment = segment := by
  unfold deliver
  split
  · rfl
  · split <;> rfl

theorem answers_deliver (w : ω) (segment : Bytes) :
    Answers w (deliver w segment).2.2.calls (deliver w segment).2.1 := by
  have h := answers_writeAll w segment
  unfold deliver
  split
  · rename_i hwritten
    rwa [hwritten] at h
  · rename_i w' calls hwritten
    rw [hwritten] at h
    have hlast : Answers w (calls ++ [.flush (flush w').1]) (flush w').2 :=
      h.append (.flush (.nil _))
    split
    · rename_i hflush
      rwa [hflush] at hlast
    · rename_i hflush
      rwa [hflush] at hlast

theorem attempt_deliver (w : ω) (segment : Bytes) :
    Attempt segment (deliver w segment).2.2.calls := by
  have h := attempt_writeAll w segment
  unfold deliver
  split
  · rename_i hwritten
    rw [hwritten] at h
    rcases h with ⟨hok, -⟩ | ⟨-, hattempt⟩
    · cases hok
    · exact hattempt
  · rename_i hwritten
    rw [hwritten] at h
    rcases h with ⟨-, hattempt⟩ | ⟨⟨cause, herror⟩, -⟩
    · split <;> exact hattempt _
    · cases herror

end Sink

end Terminfo
