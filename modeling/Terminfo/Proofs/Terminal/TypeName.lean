import Terminfo.Proofs.Terminal.ConfiguredTerm
import Terminfo.Proofs.Terminal.UnreadEnvironment

set_option autoImplicit false

namespace Terminfo

variable {ω α : Type}

theorem Bytes.zero_mem_ofText {s : String} (h : '\x00' ∈ s.toList) : 0 ∈ ofText s := by
  rw [ofText_eq_flatMap]
  exact List.mem_flatMap.2 ⟨'\x00', h, List.mem_singleton.2 rfl⟩

theorem Bytes.ofText_eq_nil {s : String} (h : ofText s = []) : s = "" := by
  have htext := text?_ofText s
  rw [h] at htext
  exact (Option.some.inj htext).symm

/-- No variable has a zero byte in its value, as values end at their first one. -/
def Environment.Terminated (env : Environment) : Prop :=
  ∀ name b, env.get? name = some b → 0 ∉ b

section Setup

variable {h : Host} {text : String}

structure Host.TermIs (h : Host) (text : String) : Prop where
  get? : h.env.get? "TERM" = some (Bytes.ofText text)
  ne_empty : text ≠ ""
  zero_notMem : '\x00' ∉ text.toList

theorem Host.termIs_of_text? (hhost : h.env.Terminated) (htext : h.env.text? "TERM" = some text)
    (hne : text ≠ "") : h.TermIs text := by
  obtain ⟨b, hb, hdecoded⟩ := Option.bind_eq_some_iff.1 htext
  obtain rfl := Bytes.ofText_of_text? hdecoded
  exact ⟨hb, hne, fun hzero ↦ hhost "TERM" _ hb (Bytes.zero_mem_ofText hzero)⟩

namespace Host.TermIs

variable (ht : h.TermIs text)

include ht

theorem text? : h.env.text? "TERM" = some text := by
  rw [Environment.text?, ht.get?, Option.bind_some, Bytes.text?_ofText]

theorem shownName : Switchboard.shownName h (some text) = Switchboard.shownName h none := by
  simp only [Switchboard.shownName, Option.getD_some, Option.getD_none, ht.text?]

theorem requested :
    Provider.requested h (some (Bytes.ofText text)) = Provider.requested h none := by
  have hne : Bytes.ofText text ≠ [] := fun hempty ↦ ht.ne_empty (Bytes.ofText_eq_nil hempty)
  have hfull : (some (Bytes.ofText text)).filter (fun b ↦ !b.isEmpty) =
      some (Bytes.ofText text) := by simpa using hne
  simp only [Provider.requested, ht.get?, hfull, Option.or]

theorem setup (b : Switchboard) (fd : Descriptor) :
    b.setup h (some text) fd = b.setup h none fd := by
  have hprovider (p : Provider) : p.setup h (some (Bytes.ofText text)) fd = p.setup h none fd := by
    simp only [Provider.setup, ht.requested]
  have hchecked : (some text).filter (·.toList.contains '\x00') = none := by
    simpa using ht.zero_notMem
  simp only [Switchboard.setup, hchecked, Option.filter_none, Option.map_some, Option.map_none,
    hprovider, ht.shownName]

theorem establish (fd : Descriptor) :
    Session.establish h (some text) fd = Session.establish h none fd := by
  simp only [Session.establish, Session.init, ht.setup]

end Host.TermIs

theorem Provider.or_eq_of_requested {name : Option Bytes} {b : Bytes}
    (hrequested : requested h name = .ok b) :
    name.or ((h.env.get? "TERM").filter fun b ↦ !b.isEmpty) = some b := by
  simp only [requested] at hrequested
  split at hrequested
  · cases hrequested
  · rename_i found hfound
    split at hrequested
    · cases hrequested
    · exact hfound.trans (congrArg some (Except.ok.inj hrequested))

theorem Switchboard.Acquires.named {term : Option String} {name : Bytes} {entry : Entry}
    (ha : Acquires h term name entry) : name = Bytes.ofText (shownName h term) ∧
      shownName h term ≠ "" ∧ h.entry? (shownName h term) = some entry := by
  have hfound := ha.found
  unfold Provider.find? at hfound
  split at hfound
  · cases hfound
  · rename_i hpath
    obtain ⟨s, hs, hentry⟩ := Option.bind_eq_some_iff.1 hfound
    obtain rfl := Bytes.ofText_of_text? hs
    have hne : s ≠ "" := by
      rintro rfl
      exact hpath rfl
    have hrequested := Provider.or_eq_of_requested ha.requested
    have hshown : shownName h term = s := by
      cases term with
      | some given =>
        have hgiven := congrArg Bytes.text? (Option.some.inj hrequested)
        rw [Bytes.text?_ofText, Bytes.text?_ofText] at hgiven
        exact Option.some.inj hgiven
      | none =>
        have hget : h.env.get? "TERM" = some (Bytes.ofText s) :=
          (Option.filter_eq_some_iff.1 hrequested).1
        simp [shownName, Environment.text?, hget, Bytes.text?_ofText]
    rw [hshown]
    exact ⟨rfl, hne, hentry⟩

theorem Config.term_ofHost (hhost : h.env.Terminated) :
    (ofHost h).term = none ∨ ∃ text, (ofHost h).term = some text ∧ h.TermIs text := by
  cases hterm : (ofHost h).term with
  | none => exact .inl rfl
  | some text =>
    obtain ⟨htext, hne⟩ := Option.filter_eq_some_iff.1 hterm
    exact .inr ⟨text, rfl, Host.termIs_of_text? hhost htext (by simpa using hne)⟩

theorem Config.validate_ofHost (h : Host) : (ofHost h).validate = .ok () := by
  have hterm : (ofHost h).term ≠ some "" := fun hempty ↦ by
    simpa using (Option.filter_eq_some_iff.1 hempty).2
  have hfault : (ofHost h).fault? = none := by
    unfold fault?
    rw [if_neg hterm]
    rfl
  rw [validate, hfault]

end Setup

namespace Terminal

/-- From its setup on, whatever happens, the terminal tells the name of the entry that was loaded
for it. -/
def IsNamed [Sink ω] (f : Fleet) (board : Switchboard) (t : Terminal ω) : Prop :=
  t.term ≠ "" ∧ ∃ entry, f.host.entry? t.term = some entry ∧
    ∀ (α : Type) (program : Closure ω α) (history : List Happening),
      let p := (Process.start f board t program).after history
      ((p.station.terminal.read p.station.host .term).run p.station.board).1 = .ok (.text t.term) ∧
        (p.station.terminal.session.owned p.station.board).fixed =
          some (Context.load f.host (Bytes.ofText t.term) (Sink.descriptor t.out) entry)

theorem isNamed_of_establish [Sink ω] {f : Fleet} (hf : f.Coherent) {config : Config} {out : ω}
    {t : Terminal ω} {board : Switchboard}
    (ht : (establish f.host config out).run f.board = (.ok t, board)) : t.IsNamed f board := by
  obtain ⟨-, s, -, hmade⟩ := establish_run_eq_ok_iff.1 ht
  have hterm : t.term = Switchboard.shownName f.host config.term := congrArg Terminal.term hmade
  have hlasting (α : Type) : ∃ entry, t.term ≠ "" ∧ f.host.entry? t.term = some entry ∧
      ∀ program : Closure ω α, (Process.start f board t program).Lasts t
        (Context.load f.host (Bytes.ofText t.term) (Sink.descriptor t.out) entry) := by
    obtain ⟨name, entry, hacquires, -, rfl, hlasts⟩ := Process.lasts_start hf ht
    obtain ⟨rfl, hne, hentry⟩ := hacquires.named
    rw [← hterm] at hne hentry hlasts
    exact ⟨entry, hne, hentry, hlasts⟩
  obtain ⟨entry, hne, hentry, -⟩ := hlasting Unit
  refine ⟨hne, entry, hentry, fun α program history ↦ ?_⟩
  -- programs of another type begin on the same setup, with the same entry
  obtain ⟨entry', -, hentry', hlasts⟩ := hlasting α
  obtain rfl : entry' = entry := Option.some.inj (hentry'.symm.trans hentry)
  intro p
  have hlast : p.Lasts t _ := (hlasts program).after history
  have hsession : p.station.terminal.session = t.session := hlast.nested.session
  have hname : p.station.terminal.term = t.term := hlast.nested.term
  refine ⟨congrArg (fun name ↦ Except.ok (Value.text name)) hname, ?_⟩
  rw [hsession]
  exact hlast.fixed

theorem establish_withTerm [Sink ω] {h : Host} {config config' : Config} {out : ω}
    (hconfig : config' = { config with term := config'.term })
    (hvalid : config.validate = .ok ()) (hvalid' : config'.validate = .ok ())
    (hsession : Session.establish h config'.term (Sink.descriptor out) =
      Session.establish h config.term (Sink.descriptor out))
    (hshown : Switchboard.shownName h config'.term = Switchboard.shownName h config.term)
    (b : Switchboard) :
    let made := (establish h config out).run b
    (establish h config' out).run b = (made.1.map (·.withTerm config'.term), made.2) := by
  simp only [establish, hvalid, hvalid', Guarded.run_bind, hsession]
  generalize (Session.establish h config.term (Sink.descriptor out)).run b = r
  obtain ⟨result, board⟩ := r
  cases result with
  | error e => rfl
  | ok session =>
    have hname : config'.term.getD ((h.env.text? "TERM").getD "") =
        config.term.getD ((h.env.text? "TERM").getD "") := hshown
    simp only [Guarded.run_pure, hname, Except.map, withTerm, ← hconfig]

theorem establish_ofHost [Sink ω] {h : Host} (hhost : h.env.Terminated) (out : ω)
    (b : Switchboard) :
    let found := (establishDefault h none out).run b
    (establish h (Config.ofHost h) out).run b =
      (found.1.map (·.withTerm (Config.ofHost h).term), found.2) := by
  refine establish_withTerm rfl rfl (Config.validate_ofHost h) ?_ ?_ b
  · rcases Config.term_ofHost hhost with hnone | ⟨text, hsome, ht⟩
    · rw [hnone]
    · rw [hsome, ht.establish]
  · rcases Config.term_ofHost hhost with hnone | ⟨text, hsome, ht⟩
    · rw [hnone]
    · rw [hsome, ht.shownName]

theorem after_start_withTerm [Sink ω] (f : Fleet) (board : Switchboard) (t : Terminal ω)
    (term : Option String) {program : Closure ω α} (hprogram : program.OverlooksTerm)
    (history : List Happening) :
    (Process.start f board (t.withTerm term) program).after history =
      ((Process.start f board t program).after history).withTerm term := by
  have hmoment : (Process.start f board t program).moment.OverlooksTerm :=
    ⟨hprogram, fun _ h ↦ (nomatch h)⟩
  exact Process.after_withTerm hmoment history

theorem isNamed_of_openTty {f : Fleet} (hf : f.Coherent) {config : Config} {t : Terminal OpenFile}
    {board : Switchboard} (ht : (openTty f.host config).run f.board = (.ok t, board)) :
    t.IsNamed f board := by
  unfold openTty at ht
  split at ht
  · cases ht
  · split at ht
    · cases ht
    · exact isNamed_of_establish hf ht

/-- It makes no difference whether a terminal type is given or found in the environment, but for
that setting itself, and a terminal keeps the name of its entry. Programs are compared that do not
depend on the setting. -/
theorem given_as_in_environment [Sink ω] (host : Host) (allocator : Allocator) (moves : List Move)
    (out : ω) (henv : ((Fleet.start host allocator).moveAll moves).host.env.Terminated) :
    let f := (Fleet.start host allocator).moveAll moves
    let config := Config.ofHost f.host
    let given := (establish f.host config out).run f.board
    let found := (establishDefault f.host none out).run f.board
    (∀ text, f.host.env.text? "TERM" = some text → text ≠ "" → ∀ name fd,
      f.move (.establish name (some text) fd) = f.move (.establish name none fd)) ∧
    config.validate = .ok () ∧
    given = (found.1.map (·.withTerm config.term), found.2) ∧
    (∀ t board, found = (.ok t, board) → ∀ (program : Closure ω α) (history : List Happening),
      program.OverlooksTerm →
      (Process.start f board (t.withTerm config.term) program).after history =
        ((Process.start f board t program).after history).withTerm config.term) ∧
    (∀ settings t board, (establish f.host settings out).run f.board = (.ok t, board) →
      t.IsNamed f board) ∧
    ∀ settings t board, (openTty f.host settings).run f.board = (.ok t, board) →
      t.IsNamed f board := by
  intro f config given found
  have hf : f.Coherent := (Fleet.coherent_start host allocator).moveAll moves
  have henv : f.host.env.Terminated := henv
  refine ⟨fun text htext hne name fd ↦ ?_, Config.validate_ofHost f.host,
    establish_ofHost henv out f.board,
    fun t board _ program history hprogram ↦ after_start_withTerm f board t _ hprogram history,
    fun settings t board ht ↦ isNamed_of_establish hf ht,
    fun settings t board ht ↦ isNamed_of_openTty hf ht⟩
  have ht := Host.termIs_of_text? henv htext hne
  simp only [Fleet.move, ht.establish]

theorem given_as_in_environment_later_unset :
    let host : Host := { env := [("TERM", Bytes.ofText "x")], entries := [("x", some {})] }
    let f := Fleet.start host .ascending
    let out : OpenFile := { fd := 1 }
    let t : Terminal OpenFile :=
      { session := { context := some 1 }, out, config := {}, term := "x" }
    let found := (establishDefault host none out).run f.board
    let program : Closure OpenFile Unit := .ofSteps true (.returned ())
      [.act (.setEnv "TERM" none), .act (.read .config), .act (.read .term)]
    let history : List Happening := [.step, .move (.setEnv "TERM" (some [255])), .step, .step]
    host.env.Terminated ∧ found = (.ok t, found.2) ∧
      f.move (.establish "s" (some "x") 1) = f.move (.establish "s" none 1) ∧
      (establish host (Config.ofHost host) out).run f.board =
        (.ok (t.withTerm (some "x")), found.2) ∧
      program.OverlooksTerm ∧
      (Process.start f found.2 (t.withTerm (some "x")) program).after history =
        ((Process.start f found.2 t program).after history).withTerm (some "x") ∧
      t.IsNamed f found.2 := by
  intro host f out t found program history
  have henv : host.env.Terminated := by
    intro name b hb
    have hzero : ∀ v ∈ host.env, 0 ∉ v.2 := by decide +kernel
    obtain ⟨before, after, hvars, -⟩ := List.lookup_eq_some_iff.1 hb
    exact hzero (name, b) (by simp [hvars])
  have hfound : found = (.ok t, found.2) := rfl
  have hterm : (Config.ofHost host).term = some "x" := by decide +kernel
  have hprogram : program.OverlooksTerm :=
    Closure.overlooksTerm_ofSteps true _ fun step hstep ↦ by
      simp only [List.mem_cons, List.not_mem_nil, or_false] at hstep
      rcases hstep with rfl | rfl | rfl <;> trivial
  obtain ⟨hsession, -, hgiven, hafter, hnamed, -⟩ :=
    given_as_in_environment (α := Unit) host .ascending [] out henv
  refine ⟨henv, hfound, hsession "x" (by decide +kernel) (by decide) "s" 1, ?_, hprogram, ?_,
    hnamed {} t found.2 hfound⟩
  · rw [← hterm]
    exact hgiven
  · rw [← hterm]
    exact hafter t found.2 hfound program history hprogram

end Terminal

end Terminfo
