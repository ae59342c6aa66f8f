import Terminfo.Proofs.Fleet.Isolation
import Terminfo.Proofs.Session.Fixed
import Terminfo.Proofs.Template.Agreement
import Terminfo.Proofs.Template.Trace

set_option autoImplicit false

namespace Terminfo

namespace Template

def Stores (template : Bytes) (name : UInt8) : Prop := .store name ∈ Scan.text.directives template

def Loads (template : Bytes) (name : UInt8) : Prop :=
  isUpper name ∧ .load name ∈ Scan.text.directives template

variable {stored : Variables} {parameters : List Int64} {template : Bytes} {name : UInt8}

theorem expand_stored (h : ¬ Stores template name) :
    (expand stored parameters template).2 name = stored name :=
  Machine.run_stored fun hname ↦ absurd (mem_directives_of_mem_trace hname) h

end Template

def Query.Stores (q : Query) (name : UInt8) : Prop :=
  ∃ template parameters, q = .expandParameters template parameters ∧ Template.Stores template name

namespace OwnedSession

variable {o o' : OwnedSession} {template : Bytes} {parameters : List Int64} {name : UInt8}

def stored (o : OwnedSession) (name : UInt8) : Int32 :=
  (o.context.map fun c ↦ c.stored name).getD 0

/-- The upper-case variables that an expansion reads before it stores into them itself. -/
def Reads (o : OwnedSession) (template : Bytes) (parameters : List Int64) (name : UInt8) : Prop :=
  ∃ c ∈ o.context,
    name ∈ Template.inputs ((Template.start c.stored parameters template).trace template)

theorem Reads.loads (h : o.Reads template parameters name) : Template.Loads template name := by
  obtain ⟨c, -, hname⟩ := h
  obtain ⟨hupper, hload⟩ := Template.load_mem_of_mem_inputs hname
  exact ⟨hupper, Template.mem_directives_of_mem_trace hload⟩

theorem stored_apply {α : Type} {g : Context → Except Error α × Context}
    (hg : ∀ c, (g c).2.stored name = c.stored name) :
    (o.apply g).2.stored name = o.stored name := by
  unfold apply
  split
  · rfl
  · rename_i c hc
    simp only [stored, hc, Option.map_some, hg]

theorem stored_ask {q : Query} (h : ¬ q.Stores name) : (o.ask q).2.stored name = o.stored name := by
  cases q with
  | isInitialized | diagnostic | describe => rfl
  | lookup name' kind => exact congrArg (stored · name) (lookup_snd name' kind)
  | flag name' => exact congrArg (stored · name) (lookup_snd name' .boolean)
  | number name' => exact congrArg (stored · name) (lookup_snd name' .numeric)
  | string name' => exact congrArg (stored · name) (lookup_snd name' .string)
  | expandPadding template lines =>
    exact congrArg (stored · name) (expandPadding_snd template lines)
  | expandParameters template parameters =>
    have hstores : ¬ Template.Stores template name :=
      fun hstores ↦ h ⟨template, parameters, rfl, hstores⟩
    simp only [ask, expandParameters]
    split
    · rfl
    · refine stored_apply fun c ↦ ?_
      rcases c.expansion_snd parameters template with hc | hc
      · rw [hc]
      · rw [hc]
        exact Template.expand_stored hstores

theorem stored_after {queries : List Query} (h : ∀ q ∈ queries, ¬ q.Stores name) :
    (o.after (queries.map .ask)).stored name = o.stored name := by
  induction queries generalizing o with
  | nil => rfl
  | cons q queries ih =>
    obtain ⟨hq, hqueries⟩ := List.forall_mem_cons.1 h
    exact (ih hqueries).trans (stored_ask hq)

theorem fixed_asks (queries : List Query) : (o.after (queries.map .ask)).fixed = o.fixed := by
  induction queries generalizing o with
  | nil => rfl
  | cons q queries ih => exact ih.trans (fixed_ask q)

theorem context_cases (h : o'.fixed = o.fixed) :
    o.context = none ∧ o'.context = none ∨
      ∃ c c', o.context = some c ∧ o'.context = some c' ∧ c'.fixed = c.fixed := by
  unfold fixed at h
  cases hc : o.context with
  | none =>
    rw [hc] at h
    exact .inl ⟨rfl, Option.map_eq_none_iff.1 h⟩
  | some c =>
    rw [hc] at h
    obtain ⟨c', hc', hfixed⟩ := Option.map_eq_some_iff.1 h
    exact .inr ⟨c, c', rfl, hc', hfixed⟩

theorem expandParameters_error_congr (h : o'.fixed = o.fixed) {e : Error} :
    (o'.expandParameters template parameters).1 = .error e ↔
      (o.expandParameters template parameters).1 = .error e := by
  unfold expandParameters apply
  cases Session.checkExpansion template parameters with
  | error e' => exact Iff.rfl
  | ok _ =>
    rcases context_cases h with ⟨hc, hc'⟩ | ⟨c, c', hc, hc', hfixed⟩
    · simp only [hc, hc']
    · simp only [hc, hc']
      exact Context.expansion_error_congr hfixed

theorem expandParameters_congr (h : o'.fixed = o.fixed)
    (hreads : ∀ name, o.Reads template parameters name → o'.stored name = o.stored name) :
    (o'.expandParameters template parameters).1 = (o.expandParameters template parameters).1 := by
  unfold expandParameters apply
  cases Session.checkExpansion template parameters with
  | error e => rfl
  | ok _ =>
    rcases context_cases h with ⟨hc, hc'⟩ | ⟨c, c', hc, hc', hfixed⟩
    · simp only [hc, hc']
    · have hcarries := Context.carriesOut_congr hfixed template
      simp only [hc, hc']
      rcases c.expansion_cases parameters template with
        ⟨htext, hfirst⟩ | ⟨htext, hcarried, hfirst⟩ | ⟨htext, hcarried, hfirst⟩
      · rw [hfirst, Context.expansion_of_takesString htext]
      · rw [hfirst, Context.expansion_of_not_carriesOut htext (hcarries.trans hcarried)]
      · rw [hfirst, Context.expansion_of_carriesOut htext (hcarries.trans hcarried)]
        refine congrArg Except.ok (Template.expand_fst_congr rfl fun name hname ↦ ?_)
        simpa only [stored, hc, hc', Option.map_some, Option.getD_some] using
          hreads name ⟨c, hc, hname⟩

end OwnedSession

namespace Fleet

variable {f : Fleet}

theorem owned_asks (hf : f.Coherent) (name : String) (queries : List Query) :
    ((f.moveAll (queries.map (.ask name))).session name).owned
        (f.moveAll (queries.map (.ask name))).board =
      ((f.session name).owned f.board).after (queries.map .ask) := by
  induction queries generalizing f with
  | nil => rfl
  | cons q queries ih =>
    have hq := Session.ask_mirrors hf.board (hf.live_session name) q
    have hboard : (f.move (.ask name q)).2.board = (((f.session name).ask q).run f.board).2 := rfl
    have hsession : (f.move (.ask name q)).2.session name = f.session name := rfl
    refine (ih (hf.move (.ask name q))).trans ?_
    rw [hsession, hboard, hq.owned]
    rfl

theorem answer_expandParameters (hf : f.Coherent) (name : String) (template : Bytes)
    (parameters : List Int64) :
    (f.move (.ask name (.expandParameters template parameters))).1 =
      (((f.session name).owned f.board).expandParameters template parameters).1.map .bytes :=
  (Session.ask_mirrors hf.board (hf.live_session name)
    (.expandParameters template parameters)).answer

/-- Between two expansions of one template nothing counts but the upper-case variables that the
template reads before it stores into them. Templates in between may store into those, and so may the
first expansion. -/
theorem expansion_repeats (host : Host) (allocator : Allocator) (moves : List Move) (name : String)
    (template : Bytes) (parameters : List Int64) (between : List Query) :
    let again : Query := .expandParameters template parameters
    let f := (start host allocator).moveAll moves
    let g := f.moveAll ((again :: between).map (.ask name))
    let o := (f.session name).owned f.board
    let o' := (g.session name).owned g.board
    let first := (f.move (.ask name again)).1
    let second := (g.move (.ask name again)).1
    (∀ e, second = .error e ↔ first = .error e) ∧
    ((∀ x, o.Reads template parameters x → o'.stored x = o.stored x) → second = first) ∧
    ((∀ x, Template.Loads template x → ∀ q ∈ again :: between, ¬ q.Stores x) → second = first) := by
  intro again f g o o' first second
  have hf : f.Coherent := (coherent_start host allocator).moveAll moves
  have hg : g.Coherent := hf.moveAll _
  have howned : o' = o.after ((again :: between).map .ask) := owned_asks hf name _
  have hfixed : o'.fixed = o.fixed := howned ▸ OwnedSession.fixed_asks _
  have hfirst : first = (o.expandParameters template parameters).1.map .bytes :=
    answer_expandParameters hf name template parameters
  have hsecond : second = (o'.expandParameters template parameters).1.map .bytes :=
    answer_expandParameters hg name template parameters
  have hsame (hreads : ∀ x, o.Reads template parameters x → o'.stored x = o.stored x) :
      second = first := by
    rw [hfirst, hsecond, OwnedSession.expandParameters_congr hfixed hreads]
  refine ⟨fun e ↦ ?_, hsame, fun hstores ↦ hsame fun x hx ↦ ?_⟩
  · have herror (r : Except Error Bytes) : r.map Value.bytes = .error e ↔ r = .error e := by
      cases r <;> simp [Except.map]
    rw [hfirst, hsecond, herror, herror]
    exact OwnedSession.expandParameters_error_congr hfixed
  · rw [howned]
    exact OwnedSession.stored_after (hstores x hx.loads)

theorem expansion_repeats_of_unread_store :
    let f := (start { entries := [("x", some {})] } .ascending).moveAll
      [.establish "s" (some "x") 1, .ask "s" (.expandParameters (Bytes.ofText "%p1%PA") [3])]
    let template := Bytes.ofText "%gA%d%p1%PB%gB%d"
    let between : List Query := [.flag "am", .expandParameters (Bytes.ofText "%p1%PB") [7],
      .expandPadding (Bytes.ofText "$<5>") 1]
    let g := f.moveAll ((.expandParameters template [5] :: between).map (.ask "s"))
    let o := (f.session "s").owned f.board
    let o' := (g.session "s").owned g.board
    (∀ x, o.Reads template [5] x → o'.stored x = o.stored x) ∧
      (g.move (.ask "s" (.expandParameters template [5]))).1 =
        (f.move (.ask "s" (.expandParameters template [5]))).1 := by
  intro f template between g o o'
  have hreads : ∀ x, o.Reads template [5] x → o'.stored x = o.stored x := by
    rintro x ⟨c, ⟨⟩, hx⟩
    revert x
    decide +kernel
  exact ⟨hreads, (expansion_repeats _ .ascending _ "s" template [5] between).2.1 hreads⟩

theorem expansion_of_stored_variable :
    let f := (start { entries := [("x", some {})] } .ascending).moveAll
      [.establish "s" (some "x") 1]
    let again : Move := .ask "s" (.expandParameters (Bytes.ofText "%gA%d%\x7b1\x7d%PA") [])
    (f.session "s").isInitialized ∧
      (f.move again).1 = .ok (.bytes (Bytes.ofText "0")) ∧
      ((f.move again).2.move again).1 = .ok (.bytes (Bytes.ofText "1")) ∧
      ((f.move again).2.move again).1 ≠ (f.move again).1 := by
  decide +kernel

end Fleet

end Terminfo
