import Terminfo.Proofs.Switchboard
import Terminfo.Session.Query

set_option autoImplicit false

namespace Terminfo

theorem error_of_map {α β : Type} {x : Except Error α} {f : α → β} {e : Error}
    (h : x.map f = .error e) : x = .error e := by
  cases x with
  | error e' => exact congrArg _ (Except.error.inj h)
  | ok a => cases h

/-- A session as its user sees it: it has its context to itself, and there is no provider. -/
structure OwnedSession where
  context : Option Context := none
  diagnostic : Int32 := 0

namespace OwnedSession

variable {α : Type}

def init (o : OwnedSession) (h : Host) (term : Option String) (fd : Descriptor) :
    Except Error Int32 × OwnedSession :=
  if o.context.isSome then (.error .alreadyInitialized, o)
  else
    match Switchboard.acquired h term fd with
    | .error e => (.error e, o)
    | .ok c => (.ok 0, { context := some c, diagnostic := 0 })

def apply (o : OwnedSession) (g : Context → Except Error α × Context) :
    Except Error α × OwnedSession :=
  match o.context with
  | none => (.error .notInitialized, o)
  | some c => ((g c).1, { o with context := some (g c).2 })

def lookup (o : OwnedSession) (name : String) (kind : Kind) :
    Except Error Capability × OwnedSession :=
  match Session.checkName name with
  | .error e => (.error e, o)
  | .ok () => o.apply fun c ↦ (.ok (c.lookup name kind), c)

def expandParameters (o : OwnedSession) (template : Bytes) (parameters : List Int64) :
    Except Error Bytes × OwnedSession :=
  match Session.checkExpansion template parameters with
  | .error e => (.error e, o)
  | .ok () => o.apply (·.expansion parameters template)

def expandPadding (o : OwnedSession) (template : Bytes) (lines : Int32) :
    Except Error Bytes × OwnedSession :=
  match Session.checkTemplate template with
  | .error e => (.error e, o)
  | .ok () => o.apply fun c ↦ (.ok (c.pad lines template), c)

def describe (o : OwnedSession) : String :=
  ({ context := o.context.map fun _ ↦ 0, diagnostic := o.diagnostic } : Session).describe

def ask (o : OwnedSession) : Query → Answer × OwnedSession
  | .isInitialized => (.ok (.truth o.context.isSome), o)
  | .diagnostic => (.ok (.integer o.diagnostic), o)
  | .lookup name kind => ((o.lookup name kind).1.map .capability, (o.lookup name kind).2)
  | .flag name =>
    (((o.lookup name .boolean).1.bind (·.asFlag name)).map .truth, (o.lookup name .boolean).2)
  | .number name =>
    (((o.lookup name .numeric).1.bind (·.asNumber name)).map .integer,
      (o.lookup name .numeric).2)
  | .string name =>
    (((o.lookup name .string).1.bind (·.asString name)).map .bytes, (o.lookup name .string).2)
  | .expandParameters template parameters =>
    ((o.expandParameters template parameters).1.map .bytes,
      (o.expandParameters template parameters).2)
  | .expandPadding template lines =>
    ((o.expandPadding template lines).1.map .bytes, (o.expandPadding template lines).2)
  | .describe => (.ok (.text o.describe), o)

variable {o : OwnedSession}

theorem init_of_error {h : Host} {term : Option String} {fd : Descriptor} {e : Error}
    (he : (o.init h term fd).1 = .error e) : (o.init h term fd).2 = o := by
  unfold init at he ⊢
  split
  · rfl
  · rename_i hnew
    rw [if_neg hnew] at he
    cases hacquired : Switchboard.acquired h term fd with
    | error e => rfl
    | ok c => simp [hacquired] at he

theorem init_empty_fst (h : Host) (term : Option String) (fd : Descriptor) :
    (({} : OwnedSession).init h term fd).1.map Value.integer =
      (Switchboard.acquired h term fd).map fun _ ↦ .integer 0 := by
  unfold init
  cases Switchboard.acquired h term fd <;> rfl

theorem apply_of_unchanged {g : Context → Except Error α × Context} (hg : ∀ c, (g c).2 = c) :
    (o.apply g).2 = o := by
  unfold apply
  split
  · rfl
  · rename_i c hc
    rw [hg, ← hc]

theorem lookup_snd (name : String) (kind : Kind) : (o.lookup name kind).2 = o := by
  unfold lookup
  split
  · rfl
  · exact apply_of_unchanged fun _ ↦ rfl

theorem expandPadding_snd (template : Bytes) (lines : Int32) :
    (o.expandPadding template lines).2 = o := by
  unfold expandPadding
  split
  · rfl
  · exact apply_of_unchanged fun _ ↦ rfl

theorem expandParameters_of_error {template : Bytes} {parameters : List Int64} {e : Error}
    (he : (o.expandParameters template parameters).1 = .error e) :
    (o.expandParameters template parameters).2 = o := by
  unfold expandParameters at he ⊢
  split at he
  · rfl
  · unfold apply at he ⊢
    split at he
    · rfl
    · rename_i c hc
      rw [Context.expansion_of_error he, ← hc]

theorem ask_of_error {query : Query} {e : Error} (he : (o.ask query).1 = .error e) :
    (o.ask query).2 = o := by
  cases query with
  | isInitialized | diagnostic | describe => rfl
  | lookup name kind => exact lookup_snd name kind
  | flag name => exact lookup_snd name .boolean
  | number name => exact lookup_snd name .numeric
  | string name => exact lookup_snd name .string
  | expandParameters template parameters => exact expandParameters_of_error (error_of_map he)
  | expandPadding template lines => exact expandPadding_snd template lines

end OwnedSession

namespace Session

variable {α β : Type} {s : Session} {b : Switchboard}

def owned (s : Session) (b : Switchboard) : OwnedSession where
  context := s.context.bind b.provider.held?
  diagnostic := s.diagnostic

@[simp]
theorem diagnostic_owned : (s.owned b).diagnostic = s.diagnostic := rfl

def Live (s : Session) (b : Switchboard) : Prop :=
  ∀ a, s.context = some a → a ∈ b.provider.addresses

theorem isSome_owned (hs : s.Live b) : (s.owned b).context.isSome = s.context.isSome := by
  cases hc : s.context with
  | none => simp [owned, hc]
  | some a =>
    obtain ⟨c, hheld⟩ := Provider.exists_held? (hs a hc)
    simp [owned, hc, hheld]

theorem isInitialized_of_owned (hs : s.Live b) {c : Context}
    (hc : (s.owned b).context = some c) : s.isInitialized := by
  rw [isInitialized, ← isSome_owned hs, hc]
  rfl

theorem describe_congr {s t : Session} (hi : s.isInitialized = t.isInitialized)
    (hd : s.diagnostic = t.diagnostic) : s.describe = t.describe := by
  unfold describe
  rw [hi, hd]

theorem describe_owned (hs : s.Live b) : (s.owned b).describe = s.describe := by
  refine describe_congr ?_ rfl
  simp only [isInitialized, Option.isSome_map, isSome_owned hs]

/-- The result `r` of an operation of the session on the shared switchboard is the result `o` that
it has on the session alone, and no other context has changed. -/
structure Mirrors (s : Session) (b : Switchboard) (r : α × Switchboard) (o : α × OwnedSession) :
    Prop where
  answer : r.1 = o.1
  owned : s.owned r.2 = o.2
  coherent : r.2.Coherent
  addresses : r.2.provider.addresses = b.provider.addresses
  others : ∀ {x}, s.context ≠ some x → r.2.provider.held? x = b.provider.held? x

theorem Mirrors.of_unchanged (hb : b.Coherent) (answer : α) :
    s.Mirrors b (answer, b) (answer, s.owned b) :=
  ⟨rfl, rfl, hb, rfl, fun _ ↦ rfl⟩

theorem Mirrors.map {r : α × Switchboard} {o : α × OwnedSession} (h : s.Mirrors b r o)
    (f : α → β) : s.Mirrors b (f r.1, r.2) (f o.1, o.2) :=
  ⟨congrArg f h.answer, h.owned, h.coherent, h.addresses, h.others⟩

theorem activated_mirrors (hb : b.Coherent) (hs : s.Live b)
    {f : Switchboard → Except Error α × Switchboard} {g : Context → Except Error α × Context}
    (hf : Switchboard.Performs f g) :
    s.Mirrors b ((s.activated f).run b) ((s.owned b).apply g) := by
  cases hc : s.context with
  | none =>
    simp only [activated, hc, Guarded.run_pure, OwnedSession.apply, Session.owned, Option.bind_none]
    exact ⟨rfl, by simp [Session.owned, hc], hb, rfl, fun _ ↦ rfl⟩
  | some a =>
    obtain ⟨c, hheld⟩ := Provider.exists_held? (hs a hc)
    have hswitch := Switchboard.updates_activate hb hheld
    obtain ⟨hanswer, hupdates⟩ :=
      hf hswitch.coherent (Switchboard.current_activate hb (hs a hc)) hswitch.held
    have hall := hswitch.trans hupdates
    simp only [activated, hc, Guarded.run_holding, OwnedSession.apply, Session.owned,
      Option.bind_some, hheld]
    refine ⟨hanswer, ?_, hall.coherent, hall.addresses, fun {x} hx ↦ ?_⟩
    · simp [Session.owned, hc, hall.held]
    · exact hall.others fun he ↦ hx (by rw [hc, he])

theorem lookup_mirrors (hb : b.Coherent) (hs : s.Live b) (name : String) (kind : Kind) :
    s.Mirrors b ((s.lookup name kind).run b) ((s.owned b).lookup name kind) := by
  unfold lookup OwnedSession.lookup
  cases checkName name with
  | error e => exact .of_unchanged hb _
  | ok _ => exact activated_mirrors hb hs (Switchboard.performs_lookup name kind)

theorem expandParameters_mirrors (hb : b.Coherent) (hs : s.Live b) (template : Bytes)
    (parameters : List Int64) :
    s.Mirrors b ((s.expandParameters template parameters).run b)
      ((s.owned b).expandParameters template parameters) := by
  unfold expandParameters OwnedSession.expandParameters
  cases checkExpansion template parameters with
  | error e => exact .of_unchanged hb _
  | ok _ => exact activated_mirrors hb hs (Switchboard.performs_expand parameters template)

theorem expandParameters_run (hb : b.Coherent) (hs : s.Live b) {c : Context}
    (hc : (s.owned b).context = some c) {template : Bytes} {parameters : List Int64}
    (hcheck : checkExpansion template parameters = .ok ()) :
    ((s.expandParameters template parameters).run b).1 = (c.expansion parameters template).1 := by
  rw [(expandParameters_mirrors hb hs template parameters).answer]
  simp only [OwnedSession.expandParameters, hcheck, OwnedSession.apply, hc]

theorem expandPadding_mirrors (hb : b.Coherent) (hs : s.Live b) (template : Bytes)
    (lines : Int32) (caller : Nat) :
    s.Mirrors b ((s.expandPadding template lines caller).run b)
      ((s.owned b).expandPadding template lines) := by
  unfold expandPadding OwnedSession.expandPadding
  cases checkTemplate template with
  | error e => exact .of_unchanged hb _
  | ok _ => exact activated_mirrors hb hs (Switchboard.performs_pad caller lines template)

theorem ask_mirrors (hb : b.Coherent) (hs : s.Live b) (q : Query) :
    s.Mirrors b ((s.ask q).run b) ((s.owned b).ask q) := by
  cases q with
  | isInitialized =>
    simp only [ask, OwnedSession.ask, isSome_owned hs, isInitialized]
    exact .of_unchanged hb _
  | diagnostic => exact .of_unchanged hb _
  | describe =>
    simp only [ask, OwnedSession.ask, describe_owned hs]
    exact .of_unchanged hb _
  | lookup name kind =>
    simp only [ask, Guarded.run_bind, Guarded.run_pure]
    exact (lookup_mirrors hb hs name kind).map _
  | flag name =>
    simp only [ask, getFlag, Guarded.run_bind, Guarded.run_pure]
    exact (lookup_mirrors hb hs name .boolean).map fun r ↦ (r.bind (·.asFlag name)).map Value.truth
  | number name =>
    simp only [ask, getNumber, Guarded.run_bind, Guarded.run_pure]
    exact (lookup_mirrors hb hs name .numeric).map fun r ↦ (r.bind (·.asNumber name)).map Value.integer
  | string name =>
    simp only [ask, getString, Guarded.run_bind, Guarded.run_pure]
    exact (lookup_mirrors hb hs name .string).map fun r ↦ (r.bind (·.asString name)).map Value.bytes
  | expandParameters template parameters =>
    simp only [ask, Guarded.run_bind, Guarded.run_pure]
    exact (expandParameters_mirrors hb hs template parameters).map _
  | expandPadding template lines =>
    simp only [ask, Guarded.run_bind, Guarded.run_pure]
    exact (expandPadding_mirrors hb hs template lines _).map _

theorem owned_congr {b' : Switchboard}
    (h : ∀ {a}, s.context = some a → b'.provider.held? a = b.provider.held? a) :
    s.owned b' = s.owned b := by
  cases hc : s.context with
  | none => simp [Session.owned, hc]
  | some a => simp [Session.owned, hc, h hc]

/-- The result `r` of an attempt to initialize the session on the shared switchboard is the result
`o` that it has on the session alone. Whatever new context there is belongs to the session. -/
structure Starts (s : Session) (b : Switchboard) (r : (Except Error Int32 × Session) × Switchboard)
    (o : Except Error Int32 × OwnedSession) : Prop where
  answer : r.1.1 = o.1
  owned : r.1.2.owned r.2 = o.2
  failed : ∀ {e}, r.1.1 = .error e → r.1.2 = s
  coherent : r.2.Coherent
  addresses : ∃ fresh : List Address, r.2.provider.addresses = fresh ++ b.provider.addresses ∧
    r.1.2.context.toList = fresh ++ s.context.toList
  others : ∀ {x}, x ∈ b.provider.addresses → r.2.provider.held? x = b.provider.held? x

theorem init_starts (hb : b.Coherent) (hs : s.Live b) (h : Host) (term : Option String)
    (fd : Descriptor) : s.Starts b ((s.init h term fd).run b) ((s.owned b).init h term fd) := by
  unfold init OwnedSession.init
  rw [isSome_owned hs]
  by_cases hi : s.context.isSome
  · simp only [isInitialized, hi, if_true]
    exact ⟨rfl, rfl, fun _ ↦ rfl, hb, ⟨[], rfl, rfl⟩, fun _ ↦ rfl⟩
  · have hnone : s.context = none := by simpa using hi
    simp only [isInitialized, hi, Bool.false_eq_true, if_false, Guarded.run_bind,
      Guarded.run_holding]
    have ho := Switchboard.setup_outcome hb h term fd
    revert ho
    generalize b.setup h term fd = r
    generalize Switchboard.acquired h term fd = l
    intro ho
    cases ho with
    | @refused e b' hb' hcontexts =>
      have hheld : ∀ x, b'.provider.held? x = b.provider.held? x := fun x ↦ by
        simp only [Provider.held?, hcontexts]
      refine ⟨rfl, owned_congr fun {a} _ ↦ hheld a, fun _ ↦ rfl, hb', ⟨[], ?_, rfl⟩,
        fun {x} _ ↦ hheld x⟩
      simp [Provider.addresses, hcontexts]
    | @opened a c b' hb' hnew hcontexts =>
      refine ⟨rfl, ?_, fun he ↦ absurd he (by simp), hb', ⟨[a], ?_, ?_⟩, fun {x} hx ↦ ?_⟩
      · simp [Session.owned, Provider.held?, hcontexts]
      · simp [Provider.addresses, hcontexts]
      · simp [hnone]
      · have hne : (x == a) = false := beq_eq_false_iff_ne.2 fun he ↦ hnew (he ▸ hx)
        simp [Provider.held?, hcontexts, List.lookup_cons, hne]

theorem retire_coherent (hb : b.Coherent) (hs : s.Live b) : (s.retire.run b).2.Coherent := by
  cases hc : s.context with
  | none => simpa [retire, hc] using hb
  | some a => simpa [retire, hc] using hb.release (hs a hc)

theorem addresses_retire : (s.retire.run b).2.provider.addresses =
    b.provider.addresses.filter (fun x ↦ s.context ≠ some x) := by
  cases hc : s.context with
  | none => simp [retire, hc]
  | some a =>
    simp only [retire, hc, Guarded.run_holding, Switchboard.addresses_release]
    refine List.filter_congr fun x _ ↦ ?_
    simp [eq_comm]

theorem held?_retire {x : Address} (hx : s.context ≠ some x) :
    (s.retire.run b).2.provider.held? x = b.provider.held? x := by
  cases hc : s.context with
  | none => simp [retire, hc]
  | some a =>
    have hne : x ≠ a := fun he ↦ hx (by rw [hc, he])
    simp only [retire, hc, Guarded.run_holding, Switchboard.held?_release_of_ne hne]

end Session

end Terminfo
