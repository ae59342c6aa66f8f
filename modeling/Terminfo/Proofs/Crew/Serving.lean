import Terminfo.Proofs.Crew.Own
import Terminfo.Proofs.Template.Trace

set_option autoImplicit false

namespace Terminfo

variable {ω α β : Type}

namespace OwnedSession

variable {o : OwnedSession} {template : Bytes} {parameters : List Int64}

/-- If the template is expanded, this stores into no upper-case variable. -/
def Spares (o : OwnedSession) (template : Bytes) (parameters : List Int64) : Prop :=
  ∀ c expanded, o.context = some c → (o.expandParameters template parameters).1 = .ok expanded →
    ∀ name, .store name ∈ (Template.start c.stored parameters template).trace template →
      Template.isUpper name = false

theorem Spares.of_directives (h : ∀ d ∈ Template.Scan.text.directives template,
    ∀ name, d = .store name → Template.isUpper name = false) : o.Spares template parameters := by
  intro c _ _ _ name hname
  exact h _ (Template.mem_directives_of_mem_trace hname) name rfl

theorem expandParameters_of_spares (h : o.Spares template parameters) :
    (o.expandParameters template parameters).2 = o := by
  cases hresult : (o.expandParameters template parameters).1 with
  | error e => exact expandParameters_of_error hresult
  | ok expanded =>
    unfold expandParameters
    split
    · rfl
    · unfold apply
      split
      · rfl
      · rename_i c hc
        have hstored : (Template.expand c.stored parameters template).2 = c.stored :=
          funext fun name ↦ Template.Machine.run_stored (h c expanded hc hresult name)
        have hexpansion : (c.expansion parameters template).2 = c := by
          rcases c.expansion_snd parameters template with he | he
          · exact he
          · rw [he, hstored]
        rw [hexpansion, ← hc]

def getString (o : OwnedSession) (name : String) : Except Error Bytes × OwnedSession :=
  ((o.lookup name .string).1.bind (·.asString name), (o.lookup name .string).2)

def controlString (o : OwnedSession) (lines : Int32) (name : String) (parameters : List Int64) :
    Except Error Bytes :=
  if name.isEmpty then .error (.missingArgument .capabilityName)
  else
    match (o.getString name).1 with
    | .error e => .error e
    | .ok [] => .ok []
    | .ok template =>
      match (o.expandParameters template parameters).1 with
      | .error e => .error e
      | .ok expanded => (o.expandPadding expanded lines).1

end OwnedSession

namespace Guarded

def Brief : Guarded α → Prop
  | .done _ => True
  | .hold _ next => ∀ b, ∃ a, next b = .done a

theorem brief_holding (f : Switchboard → α × Switchboard) : (holding f).Brief := fun _ ↦ ⟨_, rfl⟩

theorem Brief.bind {p : Guarded α} (hp : p.Brief) {k : α → Guarded β}
    (hk : ∀ a, ∃ c, k a = .done c) : (p >>= k).Brief := by
  cases p with
  | done a =>
    obtain ⟨c, hc⟩ := hk a
    show (k a).Brief
    rw [hc]
    trivial
  | hold effect next =>
    intro b
    obtain ⟨a, ha⟩ := hp b
    obtain ⟨c, hc⟩ := hk a
    refine ⟨c, ?_⟩
    show (next b).bind k = .done c
    rw [ha]
    exact hc

end Guarded

namespace Session

theorem brief_activated (s : Session) (f : Switchboard → Except Error α × Switchboard) :
    (s.activated f).Brief := by
  unfold activated
  split
  · trivial
  · exact Guarded.brief_holding _

theorem brief_lookup (s : Session) (name : String) (kind : Kind) : (s.lookup name kind).Brief := by
  unfold lookup
  split
  · trivial
  · exact brief_activated _ _

theorem brief_expandParameters (s : Session) (template : Bytes) (parameters : List Int64) :
    (s.expandParameters template parameters).Brief := by
  unfold expandParameters
  split
  · trivial
  · exact brief_activated _ _

theorem brief_expandPadding (s : Session) (template : Bytes) (lines : Int32) (caller : Nat) :
    (s.expandPadding template lines caller).Brief := by
  unfold expandPadding
  split
  · trivial
  · exact brief_activated _ _

theorem brief_getString (s : Session) (name : String) : (s.getString name).Brief :=
  (brief_lookup s name .string).bind fun _ ↦ ⟨_, rfl⟩

theorem brief_ask (s : Session) (query : Query) : (s.ask query).Brief := by
  cases query with
  | isInitialized | diagnostic | describe => trivial
  | lookup name kind => exact (brief_lookup s name kind).bind fun _ ↦ ⟨_, rfl⟩
  | flag name =>
    exact ((brief_lookup s name .boolean).bind fun _ ↦ ⟨_, rfl⟩).bind fun _ ↦ ⟨_, rfl⟩
  | number name =>
    exact ((brief_lookup s name .numeric).bind fun _ ↦ ⟨_, rfl⟩).bind fun _ ↦ ⟨_, rfl⟩
  | string name => exact (brief_getString s name).bind fun _ ↦ ⟨_, rfl⟩
  | expandParameters template parameters =>
    exact (brief_expandParameters s template parameters).bind fun _ ↦ ⟨_, rfl⟩
  | expandPadding template lines =>
    exact (brief_expandPadding s template lines 0).bind fun _ ↦ ⟨_, rfl⟩

theorem brief_init (s : Session) (h : Host) (term : Option String) (fd : Descriptor) :
    (s.init h term fd).Brief := by
  unfold init
  split
  · trivial
  · refine (Guarded.brief_holding _).bind fun r ↦ ?_
    cases r <;> exact ⟨_, rfl⟩

theorem brief_retire (s : Session) : s.retire.Brief := by
  unfold retire
  split
  · trivial
  · exact Guarded.brief_holding _

end Session

namespace Guarded

open Own

variable (shared : List Session) (origin : Switchboard)

def Stands (b : Switchboard) : Prop := ∀ s ∈ shared, s.Live b ∧ s.owned b = s.owned origin

/-- However the others change the switchboard between two of its holdings, as long as the shared
sessions stand and the thread keeps its own, the program ends within `n` holdings in the way that `Q`
tells. -/
def Serves (Q : Own → View → α → Prop) : Guarded α → Own → View → Nat → Prop
  | .done a, own, w, _ => ∀ b, Stands shared origin b → At own w b →
    ∃ own' w', Leads b own b own' w' ∧ Q own' w' a
  | .hold effect next, own, w, n => ∀ b, Stands shared origin b → At own w b →
    ∃ m own' w', n = m + 1 ∧ Leads b own (effect b) own' w' ∧ Serves Q (next b) own' w' m

variable {shared origin} {Q : Own → View → α → Prop} {R : Own → View → β → Prop} {p : Guarded α}
  {own : Own} {w : View} {n : Nat}

theorem Serves.of_leads (h : ∀ b, Stands shared origin b → At own w b →
    ∃ own' w', Leads b own b own' w' ∧ Serves shared origin Q p own' w' n) :
    Serves shared origin Q p own w n := by
  cases p with
  | done a =>
    intro b hb hat
    obtain ⟨own', w', hleads, hserves⟩ := h b hb hat
    obtain ⟨own'', w'', hleads', hQ⟩ := hserves b hb hleads.at'
    exact ⟨own'', w'', hleads.trans hleads', hQ⟩
  | hold effect next =>
    intro b hb hat
    obtain ⟨own', w', hleads, hserves⟩ := h b hb hat
    obtain ⟨m, own'', w'', hm, hleads', hnext⟩ := hserves b hb hleads.at'
    exact ⟨m, own'', w'', hm, hleads.trans hleads', hnext⟩

theorem Serves.mono (h : Serves shared origin Q p own w n) {m : Nat} (hm : n ≤ m) :
    Serves shared origin Q p own w m := by
  induction p generalizing own w n m with
  | done a => exact h
  | hold effect next ih =>
    intro b hb hat
    obtain ⟨k, own', w', rfl, hleads, hnext⟩ := h b hb hat
    exact ⟨m - 1, own', w', by omega, hleads, ih b hnext (by omega)⟩

theorem Serves.bind (h : Serves shared origin Q p own w n) {k : α → Guarded β} {m : Nat}
    (hk : ∀ own w a, Q own w a → Serves shared origin R (k a) own w m) :
    Serves shared origin R (p >>= k) own w (n + m) := by
  show Serves shared origin R (p.bind k) own w (n + m)
  induction p generalizing own w n with
  | done a =>
    -- the thread may come to other sessions without a holding, and goes on with these
    refine .of_leads fun b hb hat ↦ ?_
    obtain ⟨own', w', hleads, hQ⟩ := h b hb hat
    exact ⟨own', w', hleads, (hk own' w' a hQ).mono (by omega)⟩
  | hold effect next ih =>
    intro b hb hat
    obtain ⟨l, own', w', rfl, hleads, hnext⟩ := h b hb hat
    exact ⟨l + m, own', w', by omega, hleads, ih b hnext⟩

theorem Serves.done {a : α} (h : Q own w a) : Serves shared origin Q (.done a) own w n :=
  fun _ _ hat ↦ ⟨own, w, hat.leads, h⟩

theorem Brief.serves (hp : p.Brief) (h : ∀ b, Stands shared origin b → At own w b →
    ∃ own' w', Leads b own (p.run b).2 own' w' ∧ Q own' w' (p.run b).1) :
    Serves shared origin Q p own w (n + 1) := by
  cases p with
  | done a => exact h
  | hold effect next =>
    intro b hb hat
    obtain ⟨a, ha⟩ := hp b
    obtain ⟨own', w', hleads, hQ⟩ := h b hb hat
    simp only [run, ha] at hleads hQ ⊢
    exact ⟨n, own', w', rfl, hleads, .done hQ⟩

def Gives (answer : α) (own : Own) (w : View) (own' : Own) (w' : View) (a : α) : Prop :=
  a = answer ∧ own' = own ∧ w' = w

theorem Brief.serves_shared {s : Session} (hs : s ∈ shared) (hp : p.Brief)
    {g : OwnedSession → α × OwnedSession}
    (hm : ∀ b, b.Coherent → s.Live b → s.Mirrors b (p.run b) (g (s.owned b)))
    (hg : (g (s.owned origin)).2 = s.owned origin) :
    Serves shared origin (Gives (g (s.owned origin)).1 own w) p own w (n + 1) := by
  refine hp.serves fun b hb hat ↦ ?_
  obtain ⟨hlive, howned⟩ := hb s hs
  have hmirrors := hm b hat.coherent hlive
  rw [howned] at hmirrors
  -- the session comes out as it was, and so no context at all has changed
  have hsame : s.owned (p.run b).2 = s.owned b := by rw [hmirrors.owned, hg, howned]
  have hheld : ∀ a, (p.run b).2.provider.held? a = b.provider.held? a := by
    intro a
    by_cases hc : s.context = some a
    · simpa [Session.owned, hc] using congrArg OwnedSession.context hsame
    · exact hmirrors.others hc
  have hleads := Leads.of_mirrors hat hmirrors (hat.owned_of_unchanged fun a _ ↦ hheld a)
    fun a _ _ ↦ hheld a
  exact ⟨own, w, hleads, hmirrors.answer, rfl, rfl⟩

end Guarded

section Shared

open Guarded

variable {shared : List Session} {origin : Switchboard} {own : Own} {w : View} {s : Session}

theorem Session.getString_mirrors {b : Switchboard} (hb : b.Coherent) (hs : s.Live b)
    (name : String) : s.Mirrors b ((s.getString name).run b) ((s.owned b).getString name) := by
  simp only [getString, Guarded.run_bind, Guarded.run_pure]
  exact (lookup_mirrors hb hs name .string).map fun r ↦ r.bind (·.asString name)

theorem Session.serves_getString (hs : s ∈ shared) (name : String) :
    Serves shared origin (Gives ((s.owned origin).getString name).1 own w) (s.getString name) own w
      1 :=
  (brief_getString s name).serves_shared hs (g := (·.getString name))
    (fun _ hb hlive ↦ getString_mirrors hb hlive name) (OwnedSession.lookup_snd name .string)

theorem Session.serves_expandParameters (hs : s ∈ shared) {template : Bytes}
    {parameters : List Int64} (hspares : (s.owned origin).Spares template parameters) :
    Serves shared origin (Gives ((s.owned origin).expandParameters template parameters).1 own w)
      (s.expandParameters template parameters) own w 1 :=
  (brief_expandParameters s template parameters).serves_shared hs
    (g := (·.expandParameters template parameters))
    (fun _ hb hlive ↦ expandParameters_mirrors hb hlive template parameters)
    (OwnedSession.expandParameters_of_spares hspares)

theorem Session.serves_expandPadding (hs : s ∈ shared) (template : Bytes) (lines : Int32) :
    Serves shared origin (Gives ((s.owned origin).expandPadding template lines).1 own w)
      (s.expandPadding template lines) own w 1 :=
  (brief_expandPadding s template lines 0).serves_shared hs (g := (·.expandPadding template lines))
    (fun _ hb hlive ↦ expandPadding_mirrors hb hlive template lines 0)
    (OwnedSession.expandPadding_snd template lines)

theorem OwnedSession.ask_of_spares {o : OwnedSession} {query : Query}
    (h : ∀ template parameters, query = .expandParameters template parameters →
      o.Spares template parameters) : (o.ask query).2 = o := by
  cases query with
  | isInitialized | diagnostic | describe => rfl
  | lookup name kind => exact lookup_snd name kind
  | flag name => exact lookup_snd name .boolean
  | number name => exact lookup_snd name .numeric
  | string name => exact lookup_snd name .string
  | expandParameters template parameters =>
    exact expandParameters_of_spares (h template parameters rfl)
  | expandPadding template lines => exact expandPadding_snd template lines

theorem Session.serves_ask (hs : s ∈ shared) {query : Query}
    (hspares : ∀ template parameters, query = .expandParameters template parameters →
      (s.owned origin).Spares template parameters) :
    Serves shared origin (Gives ((s.owned origin).ask query).1 own w) (s.ask query) own w 1 :=
  (brief_ask s query).serves_shared hs (g := (·.ask query))
    (fun _ hb hlive ↦ ask_mirrors hb hlive query) (OwnedSession.ask_of_spares hspares)

/-- Whatever happens between its three holdings, a control string is made as if nothing were shared. -/
theorem Terminal.serves_controlString (t : Terminal ω) (hs : t.session ∈ shared) (lines : Int32)
    (name : String) (parameters : List Int64)
    (hspares : ∀ template, ((t.session.owned origin).getString name).1 = .ok template →
      (t.session.owned origin).Spares template parameters) :
    Serves shared origin
      (Gives ((t.session.owned origin).controlString lines name parameters) own w)
      (t.controlStringAffecting lines name parameters) own w 3 := by
  unfold controlStringAffecting OwnedSession.controlString
  by_cases hname : name.isEmpty
  · simp only [hname, if_true]
    exact .done ⟨rfl, rfl, rfl⟩
  · simp only [hname, Bool.false_eq_true, if_false]
    refine (t.session.serves_getString hs name).bind (m := 2) ?_
    rintro own w a ⟨rfl, rfl, rfl⟩
    cases hstring : ((t.session.owned origin).getString name).1 with
    | error e => exact .done ⟨rfl, rfl, rfl⟩
    | ok template =>
      cases template with
      | nil => exact .done ⟨rfl, rfl, rfl⟩
      | cons byte rest =>
        dsimp only
        refine (t.session.serves_expandParameters hs (hspares _ hstring)).bind (m := 1) ?_
        rintro own w a ⟨rfl, rfl, rfl⟩
        generalize ((t.session.owned origin).expandParameters (byte :: rest) parameters).1 = a
        cases a with
        | error e => exact .done ⟨rfl, rfl, rfl⟩
        | ok expanded => exact t.session.serves_expandPadding hs expanded lines

end Shared

namespace Errand

variable (h : Host) (origin : Switchboard)

def outcome (w : View) : Errand ω → Answer × View
  | .ask s query => (((s.owned origin).ask query).1, w)
  | .controlString t name parameters =>
    (((t.session.owned origin).controlString t.config.affectedLines name parameters).map .bytes, w)
  | .controlStringAffecting t lines name parameters =>
    (((t.session.owned origin).controlString lines name parameters).map .bytes, w)
  | .create name => w.move h (.create name)
  | .establish name term fd => w.move h (.establish name term fd)
  | .init name term fd => w.move h (.init name term fd)
  | .askOwn name query => w.move h (.ask name query)
  | .retire name => w.move h (.retire name)

def outcomes : View → List (Errand ω) → List Answer
  | _, [] => []
  | w, e :: errands => (e.outcome h origin w).1 :: outcomes (e.outcome h origin w).2 errands

/-- A call reaches only sessions that are shared or the own ones of its thread, and no template that
it expands for a shared one stores into an upper-case variable. -/
def Permitted (shared : List Session) : Errand ω → Prop
  | .ask s query => s ∈ shared ∧ ∀ template parameters,
    query = .expandParameters template parameters → (s.owned origin).Spares template parameters
  | .controlString t name parameters | .controlStringAffecting t _ name parameters =>
    t.session ∈ shared ∧ ∀ template, ((t.session.owned origin).getString name).1 = .ok template →
      (t.session.owned origin).Spares template parameters
  | _ => True

variable {origin} {shared : List Session} {own : Own} {w : View}

def Settles (o : Answer × View) (own : Own) (w : View) (a : Answer × Own) : Prop :=
  a.1 = o.1 ∧ a.2 = own ∧ w = o.2

open Guarded Own

theorem serves_answer {p : Guarded α} {answer : α} {n : Nat}
    (hp : Serves shared origin (Gives answer own w) p own w n) (f : α → Answer) :
    Serves shared origin (Settles (f answer, w)) (do pure (f (← p), own)) own w n := by
  refine hp.bind (m := 0) ?_
  rintro own w a ⟨rfl, rfl, rfl⟩
  exact .done ⟨rfl, rfl, rfl⟩

theorem serves_own {p : Guarded (Answer × Own)} (hp : p.Brief) {o : Answer × View}
    (hreaches : ∀ b, At own w b → Reaches b own (p.run b) o) :
    Serves shared origin (Settles o) p own w 3 := by
  refine hp.serves fun b _ hat ↦ ?_
  have hr := hreaches b hat
  exact ⟨(p.run b).1.2, o.2, hr.leads, hr.answer, rfl, rfl⟩

theorem serves_program (e : Errand ω) (hpermitted : e.Permitted origin shared) (own : Own)
    (w : View) :
    Serves shared origin (Settles (e.outcome h origin w)) (e.program h own) own w 3 := by
  cases e with
  | ask s query =>
    obtain ⟨hs, hspares⟩ := hpermitted
    exact (serves_answer (s.serves_ask hs hspares) id).mono (by omega)
  | controlString t name parameters =>
    obtain ⟨hs, hspares⟩ := hpermitted
    exact serves_answer (t.serves_controlString hs _ name parameters hspares) _
  | controlStringAffecting t lines name parameters =>
    obtain ⟨hs, hspares⟩ := hpermitted
    exact serves_answer (t.serves_controlString hs lines name parameters hspares) _
  | create name =>
    refine serves_own ?_ fun b hat ↦ ⟨rfl, hat.leads_create name⟩
    trivial
  | establish name term fd =>
    refine serves_own ?_ fun b hat ↦ hat.establish h name term fd
    refine ((Session.brief_init {} h term fd).bind fun r ↦ ?_).bind fun r ↦ ?_
    · obtain ⟨result, s⟩ := r
      cases result <;> exact ⟨_, rfl⟩
    · cases r <;> exact ⟨_, rfl⟩
  | init name term fd =>
    refine serves_own ?_ fun b hat ↦ hat.init h name term fd
    simp only [program]
    cases own.lookup name with
    | none => trivial
    | some s => exact (s.brief_init h term fd).bind fun _ ↦ ⟨_, rfl⟩
  | askOwn name query =>
    refine serves_own ?_ fun b hat ↦ hat.askOwn h name query
    exact (Session.brief_ask _ query).bind fun _ ↦ ⟨_, rfl⟩
  | retire name =>
    refine serves_own ?_ fun b hat ↦ hat.retire h name
    exact (Session.brief_retire _).bind fun _ ↦ ⟨_, rfl⟩

theorem serves_all (errands : List (Errand ω))
    (hpermitted : ∀ e ∈ errands, e.Permitted origin shared) (own : Own) (w : View) :
    Serves shared origin (fun _ _ answers ↦ answers = outcomes h origin w errands)
      (all h own errands) own w (3 * errands.length) := by
  induction errands generalizing own w with
  | nil => exact .done rfl
  | cons e errands ih =>
    obtain ⟨he, herrands⟩ := List.forall_mem_cons.1 hpermitted
    have hcall := (e.serves_program h he own w).bind
      (R := fun _ _ answers ↦ answers = outcomes h origin w (e :: errands))
      (k := fun a ↦ do pure (a.1 :: (← all h a.2 errands))) (m := 3 * errands.length) ?_
    · exact hcall.mono (by simp only [List.length_cons]; omega)
    rintro own w ⟨answer, own'⟩ ⟨rfl, rfl, rfl⟩
    refine (ih herrands _ _).bind (m := 0) ?_
    rintro own w answers rfl
    exact .done rfl

end Errand

end Terminfo
