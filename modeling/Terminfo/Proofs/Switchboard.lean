import Terminfo.Proofs.Provider
import Terminfo.Switchboard

set_option autoImplicit false

namespace Terminfo

namespace Context

variable {c : Context} {parameters : List Int64} {template : Bytes} {e : Error}

def expansion (c : Context) (parameters : List Int64) (template : Bytes) :
    Except Error Bytes × Context :=
  if Template.takesString template then (.error (.invalidArgument .stringParameters), c)
  else
    let (expanded, c) := c.expand parameters template
    (expanded.elim (.error .expansionFailed) .ok, c)

theorem expansion_of_takesString (h : Template.takesString template = true) :
    c.expansion parameters template = (.error (.invalidArgument .stringParameters), c) :=
  if_pos h

theorem expansion_of_not_carriesOut (h : Template.takesString template = false)
    (hcarries : c.carriesOut template = false) :
    c.expansion parameters template = (.error .expansionFailed, c) := by
  simp [expansion, h, expand, hcarries]

theorem expansion_of_carriesOut (h : Template.takesString template = false)
    (hcarries : c.carriesOut template = true) : c.expansion parameters template =
      (.ok (Template.expand c.stored parameters template).1,
        { c with stored := (Template.expand c.stored parameters template).2 }) := by
  simp [expansion, h, expand, hcarries]

theorem expansion_cases (c : Context) (parameters : List Int64) (template : Bytes) :
    (Template.takesString template = true ∧ c.expansion parameters template =
        (.error (.invalidArgument .stringParameters), c)) ∨
      (Template.takesString template = false ∧ c.carriesOut template = false ∧
        c.expansion parameters template = (.error .expansionFailed, c)) ∨
      (Template.takesString template = false ∧ c.carriesOut template = true ∧
        c.expansion parameters template = (.ok (Template.expand c.stored parameters template).1,
          { c with stored := (Template.expand c.stored parameters template).2 })) := by
  cases h : Template.takesString template with
  | true => exact .inl ⟨rfl, expansion_of_takesString h⟩
  | false =>
    cases hcarries : c.carriesOut template with
    | false => exact .inr (.inl ⟨rfl, rfl, expansion_of_not_carriesOut h hcarries⟩)
    | true => exact .inr (.inr ⟨rfl, rfl, expansion_of_carriesOut h hcarries⟩)

theorem expansion_snd (c : Context) (parameters : List Int64) (template : Bytes) :
    (c.expansion parameters template).2 = c ∨ (c.expansion parameters template).2 =
      { c with stored := (Template.expand c.stored parameters template).2 } := by
  rcases c.expansion_cases parameters template with ⟨-, hc⟩ | ⟨-, -, hc⟩ | ⟨-, -, hc⟩
  · exact .inl (congrArg Prod.snd hc)
  · exact .inl (congrArg Prod.snd hc)
  · exact .inr (congrArg Prod.snd hc)

theorem expansion_of_error (h : (c.expansion parameters template).1 = .error e) :
    (c.expansion parameters template).2 = c := by
  rcases c.expansion_cases parameters template with ⟨-, hc⟩ | ⟨-, -, hc⟩ | ⟨-, -, hc⟩
  · rw [hc]
  · rw [hc]
  · rw [hc] at h
    cases h

end Context

namespace Switchboard

variable {α : Type} {b : Switchboard} {a : Address} {c : Context}

/-- The marker tells which terminal is current, so that a switch may be left out where it names the
context that is wanted. -/
structure Coherent (b : Switchboard) : Prop where
  orderly : b.provider.Orderly
  marker_eq : b.marker = b.provider.current

theorem coherent_start (allocator : Allocator) : (start allocator).Coherent where
  orderly := ⟨List.nodup_nil, fun {_} hc ↦ (nomatch hc), rfl⟩
  marker_eq := rfl

theorem Coherent.deactivate (hb : b.Coherent) : b.deactivate.Coherent where
  orderly := hb.orderly.deselect
  marker_eq := rfl

theorem Coherent.adopt (hb : b.Coherent) (ha : a ∈ b.provider.addresses) : (b.adopt a).Coherent where
  orderly := hb.orderly.select ha
  marker_eq := rfl

theorem Coherent.discard (hb : b.Coherent) (ha : a ∈ b.provider.addresses)
    (hm : b.marker ≠ some a) : (b.discard a).Coherent where
  orderly := hb.orderly.delete ha
  marker_eq := by
    have hcur : b.provider.current ≠ some a := hb.marker_eq ▸ hm
    simp only [Switchboard.discard, Provider.delete_eq ha, if_neg hcur, hb.marker_eq]

theorem activate_eq_adopt (hb : b.Coherent) (ha : a ∈ b.provider.addresses) :
    b.activate a = b.adopt a := by
  by_cases hm : b.marker = some a
  · have hcur : b.provider.current = some a := hb.marker_eq ▸ hm
    have hselect : b.provider.select (some a) = b.provider := by
      rw [Provider.select_some ha, ← hcur]
    rw [Switchboard.activate, if_pos hm, Switchboard.adopt, hselect, ← hm]
  · rw [Switchboard.activate, if_neg hm, Switchboard.adopt]

/-- What happened from `b` to `b'` has at most changed the context that lies at `a`, which is now
`c`. -/
structure Updates (b : Switchboard) (a : Address) (c : Context) (b' : Switchboard) : Prop where
  coherent : b'.Coherent
  addresses : b'.provider.addresses = b.provider.addresses
  held : b'.provider.held? a = some c
  others : ∀ {x}, x ≠ a → b'.provider.held? x = b.provider.held? x

theorem Updates.trans {b' b'' : Switchboard} {c' : Context} (h : b.Updates a c b')
    (h' : b'.Updates a c' b'') : b.Updates a c' b'' where
  coherent := h'.coherent
  addresses := h'.addresses.trans h.addresses
  held := h'.held
  others hx := (h'.others hx).trans (h.others hx)

theorem updates_of_provider_eq {b' : Switchboard} (hb : b.Coherent)
    (hc : b.provider.held? a = some c) (hprovider : b'.provider = b.provider)
    (hmarker : b'.marker = b.marker) : b.Updates a c b' where
  coherent := ⟨hprovider ▸ hb.orderly, by rw [hmarker, hprovider, hb.marker_eq]⟩
  addresses := by rw [hprovider]
  held := hprovider ▸ hc
  others _ := by rw [hprovider]

theorem updates_activate (hb : b.Coherent) (hc : b.provider.held? a = some c) :
    b.Updates a c (b.activate a) := by
  have ha := Provider.mem_addresses_of_held? hc
  rw [activate_eq_adopt hb ha]
  exact ⟨hb.adopt ha, rfl, hc, fun _ ↦ rfl⟩

theorem current_activate (hb : b.Coherent) (ha : a ∈ b.provider.addresses) :
    (b.activate a).provider.current = some a := by
  rw [activate_eq_adopt hb ha, Switchboard.adopt, Provider.select_some ha]

def Performs (f : Switchboard → α × Switchboard) (g : Context → α × Context) : Prop :=
  ∀ {b a c}, b.Coherent → b.provider.current = some a → b.provider.held? a = some c →
    (f b).1 = (g c).1 ∧ b.Updates a (g c).2 (f b).2

theorem performs_lookup (name : String) (kind : Kind) :
    Performs (fun b ↦ ((.ok (b.provider.lookup name kind) : Except Error Capability), b))
      fun c ↦ (.ok (c.lookup name kind), c) := by
  intro b a c hb hcur hc
  refine ⟨?_, updates_of_provider_eq hb hc rfl rfl⟩
  simp [Provider.lookup, Provider.context?_eq hcur, hc]

theorem performs_expand (parameters : List Int64) (template : Bytes) :
    Performs (·.expand parameters template) (·.expansion parameters template) := by
  intro b a c hb hcur hc
  by_cases hs : Template.takesString template
  · simp only [expand, Context.expansion, hs, if_true]
    exact ⟨trivial, updates_of_provider_eq hb hc rfl rfl⟩
  · have hctx : b.provider.context? = some c := by rw [Provider.context?_eq hcur, hc]
    have ha := Provider.mem_addresses_of_held? hc
    simp only [expand, Context.expansion, hs, Bool.false_eq_true, if_false, Provider.expand, hcur,
      hctx]
    exact ⟨trivial, ⟨hb.orderly.update _ _, hb.marker_eq⟩, Provider.addresses_update,
      Provider.held?_update_self ha, Provider.held?_update_of_ne⟩

theorem provider_foldl_emit (bytes : Bytes) (b : Switchboard) :
    (bytes.foldl emit b).provider = b.provider ∧ (bytes.foldl emit b).marker = b.marker ∧
      (bytes.foldl emit b).outlet = bytes.foldl Padding.Outlet.emit b.outlet := by
  induction bytes generalizing b with
  | nil => exact ⟨rfl, rfl, rfl⟩
  | cons byte bytes ih => exact ih (b.emit byte)

theorem performs_pad (caller : Nat) (lines : Int32) (template : Bytes) :
    Performs (fun b ↦ ((.ok (b.pad caller lines template).1 : Except Error Bytes),
        (b.pad caller lines template).2))
      fun c ↦ (.ok (c.pad lines template), c) := by
  intro b a c hb hcur hc
  have hemitted : b.provider.emitted lines template = c.pad lines template := by
    simp [Provider.emitted, Provider.context?_eq hcur, hc]
  obtain ⟨hprovider, hmarker, houtlet⟩ :=
    provider_foldl_emit (b.provider.emitted lines template) (b.bindOutlet caller)
  have hbound : (b.bindOutlet caller).outlet = Padding.Outlet.bind caller := rfl
  refine ⟨?_, updates_of_provider_eq hb hc hprovider hmarker⟩
  rw [hbound, hemitted] at houtlet
  simp only [pad, houtlet, Padding.Outlet.collected_foldl_emit, hemitted]

def acquired (h : Host) (term : Option String) (fd : Descriptor) : Except Error Context :=
  match term.filter (·.toList.contains '\x00') with
  | some name => .error (.invalidArgument (.zeroInTerminalType name))
  | none =>
    (Provider.loaded h (term.map Bytes.ofText) fd).mapError (·.toError (shownName h term))

/-- How a setup ends, by what it was to give. A failed one leaves no context behind. -/
inductive Outcome (b : Switchboard) :
    Except Error Context → Except Error Address × Switchboard → Prop
  | refused {e : Error} {b' : Switchboard} : b'.Coherent →
      b'.provider.contexts = b.provider.contexts → Outcome b (.error e) (.error e, b')
  | opened {a : Address} {c : Context} {b' : Switchboard} : b'.Coherent →
      a ∉ b.provider.addresses → b'.provider.contexts = (a, c) :: b.provider.contexts →
      Outcome b (.ok c) (.ok a, b')

theorem setup_outcome (hb : b.Coherent) (h : Host) (term : Option String) (fd : Descriptor) :
    b.Outcome (acquired h term fd) (b.setup h term fd) := by
  unfold acquired setup
  cases term.filter (·.toList.contains '\x00') with
  | some name => exact .refused hb rfl
  | none =>
    have hquiet : ∀ q : Provider, q.Orderly →
        ({ b with provider := q } : Switchboard).deactivate.Coherent := fun q hq ↦
      ⟨hq.deselect, rfl⟩
    have hstart : b.deactivate.provider.current = none := by simp [deactivate, Provider.select_none]
    have ho := Provider.setup_outcome hb.deactivate.orderly hstart h (term.map Bytes.ofText) fd
    revert ho
    generalize b.deactivate.provider.setup h (term.map Bytes.ofText) fd = r
    generalize Provider.loaded h (term.map Bytes.ofText) fd = l
    intro ho
    cases ho with
    | @refused fault q hq hcur hcontexts =>
      simp only [hcur]
      exact .refused (hquiet q hq) hcontexts
    | @leftover fault a c q hq =>
      simp only [hq.current]
      have hgone := (hquiet q hq.orderly).discard hq.mem (by simp [deactivate])
      exact .refused hgone hq.contexts_delete
    | @installed a c q hq =>
      simp only [hq.current]
      exact .opened ((hquiet q hq.orderly).adopt hq.mem) hq.notMem hq.contexts

theorem Coherent.release (hb : b.Coherent) (ha : a ∈ b.provider.addresses) :
    (b.release a).Coherent := by
  unfold Switchboard.release
  by_cases hm : b.marker = some a
  · rw [if_pos hm]
    exact hb.deactivate.discard ha (by simp [Switchboard.deactivate])
  · rw [if_neg hm]
    exact hb.discard ha hm

theorem addresses_release : (b.release a).provider.addresses = b.provider.addresses.filter (· ≠ a) := by
  unfold release
  split <;> exact Provider.addresses_delete

theorem held?_release_of_ne {x : Address} (hx : x ≠ a) :
    (b.release a).provider.held? x = b.provider.held? x := by
  unfold release
  split <;> exact Provider.held?_delete_of_ne hx

end Switchboard

end Terminfo
