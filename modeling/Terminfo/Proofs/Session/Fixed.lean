import Terminfo.Proofs.Context
import Terminfo.Proofs.Session.Owned
import Terminfo.Terminal.Reading

set_option autoImplicit false

namespace Terminfo

variable {ω α β : Type}

namespace OwnedSession

variable {o : OwnedSession} {c : Context} {name : String}

/-- What stays as it is for as long as the session has its context. -/
def fixed (o : OwnedSession) : Option Context := o.context.map Context.fixed

theorem fixed_apply {g : Context → Except Error α × Context}
    (hg : ∀ c, (g c).2.fixed = c.fixed) : (o.apply g).2.fixed = o.fixed := by
  unfold apply
  split
  · rfl
  · rename_i c hc
    simp [fixed, hc, hg]

theorem fixed_expandParameters (template : Bytes) (parameters : List Int64) :
    (o.expandParameters template parameters).2.fixed = o.fixed := by
  unfold expandParameters
  split
  · rfl
  · exact fixed_apply fun _ ↦ Context.fixed_expansion parameters template

theorem fixed_ask (query : Query) : (o.ask query).2.fixed = o.fixed := by
  cases query with
  | isInitialized | diagnostic | describe => rfl
  | lookup name kind => exact congrArg fixed (lookup_snd name kind)
  | flag name => exact congrArg fixed (lookup_snd name .boolean)
  | number name => exact congrArg fixed (lookup_snd name .numeric)
  | string name => exact congrArg fixed (lookup_snd name .string)
  | expandParameters template parameters => exact fixed_expandParameters template parameters
  | expandPadding template lines => exact congrArg fixed (expandPadding_snd template lines)

theorem lookup_of_fixed (ho : o.fixed = some c) (hname : Session.checkName name = .ok ())
    (kind : Kind) : (o.lookup name kind).1 = .ok (c.lookup name kind) := by
  obtain ⟨current, hcurrent, rfl⟩ := Option.map_eq_some_iff.1 ho
  simp only [lookup, hname, apply, hcurrent, Context.lookup_fixed]

theorem fixed_init_of_ok {h : Host} {term : Option String} {fd : Descriptor} {n : Int32}
    (hok : (o.init h term fd).1 = .ok n) : ∃ name entry,
      Switchboard.Acquires h term name entry ∧
        (o.init h term fd).2.fixed = some (Context.load h name fd entry) := by
  unfold init at hok ⊢
  split at hok
  · cases hok
  · rename_i hnew
    cases hacquired : Switchboard.acquired h term fd with
    | error e => simp [hacquired] at hok
    | ok c =>
      obtain ⟨name, entry, ha, rfl⟩ := Switchboard.exists_acquires hacquired
      refine ⟨name, entry, ha, ?_⟩
      rw [if_neg hnew]
      rfl

end OwnedSession

namespace Session

variable {s : Session} {b b' b'' : Switchboard} {c : Context} {name : String}

/-- From `b` to `b'` nothing has happened but what templates of the session have stored. -/
structure Tends (s : Session) (b b' : Switchboard) : Prop where
  coherent : b'.Coherent
  addresses : b'.provider.addresses = b.provider.addresses
  fixed : (s.owned b').fixed = (s.owned b).fixed
  others : ∀ {x}, s.context ≠ some x → b'.provider.held? x = b.provider.held? x

theorem Tends.refl (hb : b.Coherent) : s.Tends b b := ⟨hb, rfl, rfl, fun _ ↦ rfl⟩

theorem Tends.trans (h : s.Tends b b') (h' : s.Tends b' b'') : s.Tends b b'' where
  coherent := h'.coherent
  addresses := h'.addresses.trans h.addresses
  fixed := h'.fixed.trans h.fixed
  others hx := (h'.others hx).trans (h.others hx)

theorem Tends.live (h : s.Tends b b') (hs : s.Live b) : s.Live b' :=
  fun a ha ↦ h.addresses ▸ hs a ha

theorem Mirrors.tends {r : α × Switchboard} {o : α × OwnedSession} (h : s.Mirrors b r o)
    (hfixed : o.2.fixed = (s.owned b).fixed) : s.Tends b r.2 :=
  ⟨h.coherent, h.addresses, (congrArg _ h.owned).trans hfixed, h.others⟩

def Minds (s : Session) (p : Guarded α) : Prop :=
  ∀ b, b.Coherent → s.Live b → s.Tends b (p.run b).2

theorem minds_pure (a : α) : s.Minds (pure a) := fun _ hb _ ↦ .refl hb

theorem Minds.bind {p : Guarded α} {f : α → Guarded β} (hp : s.Minds p)
    (hf : ∀ a, s.Minds (f a)) : s.Minds (p >>= f) := by
  intro b hb hs
  have hfirst := hp b hb hs
  rw [Guarded.run_bind]
  exact hfirst.trans (hf _ _ hfirst.coherent (hfirst.live hs))

theorem Minds.map {p : Guarded α} (hp : s.Minds p) (f : α → β) :
    s.Minds (do pure (f (← p))) := hp.bind fun _ ↦ minds_pure _

theorem minds_lookup (name : String) (kind : Kind) : s.Minds (s.lookup name kind) :=
  fun _ hb hs ↦ (lookup_mirrors hb hs name kind).tends
    (congrArg OwnedSession.fixed (OwnedSession.lookup_snd name kind))

theorem minds_expandParameters (template : Bytes) (parameters : List Int64) :
    s.Minds (s.expandParameters template parameters) :=
  fun _ hb hs ↦ (expandParameters_mirrors hb hs template parameters).tends
    (OwnedSession.fixed_expandParameters template parameters)

theorem minds_expandPadding (template : Bytes) (lines : Int32) :
    s.Minds (s.expandPadding template lines) :=
  fun _ hb hs ↦ (expandPadding_mirrors hb hs template lines 0).tends
    (congrArg OwnedSession.fixed (OwnedSession.expandPadding_snd template lines))

theorem minds_ask (query : Query) : s.Minds (s.ask query) :=
  fun _ hb hs ↦ (ask_mirrors hb hs query).tends (OwnedSession.fixed_ask query)

theorem minds_getString (name : String) : s.Minds (s.getString name) :=
  (minds_lookup name .string).map _

theorem owned_getString (hb : b.Coherent) (hs : s.Live b) (name : String) :
    s.owned ((s.getString name).run b).2 = s.owned b := by
  have howned := (lookup_mirrors hb hs name .string).owned
  rw [OwnedSession.lookup_snd] at howned
  simpa only [getString, Guarded.run_bind, Guarded.run_pure] using howned

theorem getString_run (hb : b.Coherent) (hs : s.Live b) (hfixed : (s.owned b).fixed = some c)
    (hname : checkName name = .ok ()) :
    ((s.getString name).run b).1 = (c.lookup name .string).asString name := by
  have hlookup := (lookup_mirrors hb hs name .string).answer
  rw [OwnedSession.lookup_of_fixed hfixed hname] at hlookup
  simp only [getString, Guarded.run_bind, Guarded.run_pure, hlookup]
  rfl

theorem getNumber_run (hb : b.Coherent) (hs : s.Live b) (hfixed : (s.owned b).fixed = some c)
    (hname : checkName name = .ok ()) :
    ((s.getNumber name).run b).1 = (c.lookup name .numeric).asNumber name := by
  have hlookup := (lookup_mirrors hb hs name .numeric).answer
  rw [OwnedSession.lookup_of_fixed hfixed hname] at hlookup
  simp only [getNumber, Guarded.run_bind, Guarded.run_pure, hlookup]
  rfl

end Session

namespace Terminal

variable {t : Terminal ω}

theorem minds_controlStringAffecting (lines : Int32) (name : String) (parameters : List Int64) :
    t.session.Minds (t.controlStringAffecting lines name parameters) := by
  unfold controlStringAffecting
  split
  · exact Session.minds_pure _
  · refine .bind ((Session.minds_lookup name .string).map _) fun result ↦ ?_
    split
    · exact Session.minds_pure _
    · exact Session.minds_pure _
    · refine .bind (Session.minds_expandParameters _ parameters) fun result ↦ ?_
      split
      · exact Session.minds_pure _
      · exact Session.minds_expandPadding _ lines

theorem minds_dimension (h : Host) (reported : UInt16) (setting name : String) :
    t.session.Minds (t.dimension h reported setting name) := by
  unfold dimension fallbackDimension
  split
  · dsimp only
    generalize (if t.config.useEnvSize then _ else none : Option Int32) = fromEnv
    cases fromEnv with
    | some n => exact Session.minds_pure _
    | none => exact (Session.minds_lookup name .numeric).map _
  · exact Session.minds_pure _

theorem minds_screenSize [Sink ω] (h : Host) : t.session.Minds (t.screenSize h) := by
  unfold screenSize
  refine .bind (minds_dimension h _ "LINES" "lines") fun result ↦ ?_
  split
  · exact Session.minds_pure _
  · refine .bind (minds_dimension h _ "COLUMNS" "cols") fun result ↦ ?_
    split <;> exact Session.minds_pure _

theorem minds_read [Sink ω] (h : Host) (r : Reading ω) : t.session.Minds (t.read h r) := by
  cases r with
  | controlString name parameters => exact (minds_controlStringAffecting _ name parameters).map _
  | controlStringAffecting lines name parameters =>
    exact (minds_controlStringAffecting lines name parameters).map _
  | screenSize => exact (minds_screenSize h).map _
  | screenLines => exact ((minds_screenSize h).map _).map _
  | screenColumns => exact ((minds_screenSize h).map _).map _
  | term | config | describe inLines | inspect view => exact Session.minds_pure _
  | ask query => exact Session.minds_ask query

end Terminal

end Terminfo
