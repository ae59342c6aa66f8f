import Terminfo.Proofs.Session.Outcome
import Terminfo.Proofs.Terminal.Process

set_option autoImplicit false

namespace Terminfo

variable {ω α : Type}

namespace Terminal

/-- Why there is no control string for a name, by what the session has found under it. -/
inductive Refuses (c : Context) (name : String) (parameters : List Int64)
    (found : Except Error Bytes) : Error → Prop
  | unnamed : name = "" → Refuses c name parameters found (.missingArgument .capabilityName)
  | zero : '\x00' ∈ name.toList →
      Refuses c name parameters found (.invalidArgument (.zeroInCapabilityName name))
  | wrongType : found = .error (.wrongType name .string) →
      Refuses c name parameters found (.wrongType name .string)
  | missing : found = .error (.absentOrCanceled name) →
      Refuses c name parameters found (.absentOrCanceled name)
  | tooMany {template : Bytes} : found = .ok template → template ≠ [] →
      Template.parameterCount < parameters.length →
      Refuses c name parameters found (.invalidArgument (.tooManyParameters parameters.length))
  | textual {template : Bytes} : found = .ok template → template ≠ [] →
      parameters.length ≤ Template.parameterCount → Template.takesString template = true →
      Refuses c name parameters found (.invalidArgument .stringParameters)
  | unanswered {template : Bytes} : found = .ok template → template ≠ [] →
      parameters.length ≤ Template.parameterCount → Template.takesString template = false →
      c.carriesOut template = false → Refuses c name parameters found .expansionFailed

variable {t : Terminal ω} {b : Switchboard} {c : Context} {name : String}
  {parameters : List Int64} {lines : Int32}

theorem controlString_of_unnamed (hname : name = "") :
    ((t.controlStringAffecting lines name parameters).run b).1 =
      .error (.missingArgument .capabilityName) := by
  simp [controlStringAffecting, hname]

theorem controlString_of_error (hname : name ≠ "") {e : Error}
    (h : ((t.session.getString name).run b).1 = .error e) :
    ((t.controlStringAffecting lines name parameters).run b).1 = .error e := by
  simp [controlStringAffecting, hname, h]

theorem controlString_of_empty (hname : name ≠ "")
    (h : ((t.session.getString name).run b).1 = .ok []) :
    ((t.controlStringAffecting lines name parameters).run b).1 = .ok [] := by
  simp [controlStringAffecting, hname, h]

theorem controlString_of_template (hname : name ≠ "") {template : Bytes} (hne : template ≠ [])
    (h : ((t.session.getString name).run b).1 = .ok template) :
    ((t.controlStringAffecting lines name parameters).run b).1 =
      let expanded :=
        (t.session.expandParameters template parameters).run ((t.session.getString name).run b).2
      match expanded.1 with
      | .error e => .error e
      | .ok bytes => ((t.session.expandPadding bytes lines).run expanded.2).1 := by
  obtain ⟨first, rest, rfl⟩ := List.exists_cons_of_ne_nil hne
  simp only [controlStringAffecting, String.isEmpty_iff, hname, if_false, Guarded.run_bind, h]
  split <;> simp [*]

section Expansion

variable {template : Bytes} (hb : b.Coherent) (hs : t.session.Live b)
  (hc : (t.session.owned b).context = some c) (hname : name ≠ "") (hne : template ≠ [])
  (hfound : ((t.session.getString name).run b).1 = .ok template)

include hb hs hc hne hfound in
theorem expandParameters_of_found (hcount : parameters.length ≤ Template.parameterCount) :
    ((t.session.expandParameters template parameters).run
      ((t.session.getString name).run b).2).1 = (c.expansion parameters template).1 := by
  have hi := Session.isInitialized_of_owned hs hc
  have hgot := Session.minds_getString name b hb hs
  have hcheck := Session.checkExpansion_ok hne (Session.zero_notMem_of_getString hi hfound) hcount
  refine Session.expandParameters_run hgot.coherent (hgot.live hs) ?_ hcheck
  rw [Session.owned_getString hb hs, hc]

include hb hs hc hname hne hfound

theorem controlString_of_carriesOut (hcount : parameters.length ≤ Template.parameterCount)
    (hsearch : Template.takesString template = false) (hcarries : c.carriesOut template = true)
    (lines : Int32) : ∃ padded,
      let expanded := (Template.expand c.stored parameters template).1
      let expansion :=
        (t.session.expandParameters template parameters).run ((t.session.getString name).run b).2
      expansion.1 = .ok expanded ∧
        ((t.session.expandPadding expanded lines).run expansion.2).1 = .ok padded ∧
        (expanded = [] → padded = []) ∧
        ((t.controlStringAffecting lines name parameters).run b).1 = .ok padded := by
  have hi := Session.isInitialized_of_owned hs hc
  have hexpansion := expandParameters_of_found hb hs hc hne hfound hcount
  rw [Context.expansion_of_carriesOut hsearch hcarries] at hexpansion
  have hzero : 0 ∉ (Template.expand c.stored parameters template).1 := Bytes.zero_notMem_upToZero _
  obtain ⟨padded, hpadded, hempty⟩ := Session.expandPadding_ok hi hzero lines
  refine ⟨padded, hexpansion, hpadded, hempty, ?_⟩
  simp only [controlString_of_template hname hne hfound, hexpansion, hpadded]

theorem controlString_of_expansion_error (hcount : parameters.length ≤ Template.parameterCount)
    {e : Error} (he : (c.expansion parameters template).1 = .error e) :
    ((t.controlStringAffecting lines name parameters).run b).1 = .error e := by
  have hexpansion := expandParameters_of_found hb hs hc hne hfound hcount
  simp only [controlString_of_template hname hne hfound, hexpansion, he]

omit hb in
theorem controlString_of_tooMany (hcount : Template.parameterCount < parameters.length) :
    ((t.controlStringAffecting lines name parameters).run b).1 =
      .error (.invalidArgument (.tooManyParameters parameters.length)) := by
  have hi := Session.isInitialized_of_owned hs hc
  have hzero := Session.zero_notMem_of_getString hi hfound
  have hcheck := (Session.checkExpansion_error_iff hne hzero).2 ⟨hcount, rfl⟩
  simp [controlString_of_template hname hne hfound, Session.expandParameters, hcheck]

end Expansion

theorem ne_empty_of_found {found : Except Error Bytes}
    (h : ((t.session.getString name).run b).1 = found)
    (hfound : found ≠ .error (.missingArgument .capabilityName)) : name ≠ "" := by
  rintro rfl
  exact hfound (h.symm.trans (Session.getString_of_checkName rfl))

theorem refuses_of_controlString (hb : b.Coherent) (hs : t.session.Live b)
    (hc : (t.session.owned b).context = some c) {e : Error}
    (h : ((t.controlStringAffecting lines name parameters).run b).1 = .error e) :
    Refuses c name parameters ((t.session.getString name).run b).1 e := by
  by_cases hname : name = ""
  · rw [controlString_of_unnamed hname] at h
    obtain rfl := Except.error.inj h
    exact .unnamed hname
  cases hfound : ((t.session.getString name).run b).1 with
  | error e' =>
    rw [controlString_of_error hname hfound] at h
    obtain rfl := Except.error.inj h
    rcases Session.getString_error (Session.isInitialized_of_owned hs hc) hfound with
      hcheck | rfl | rfl
    · rcases Session.checkName_error_iff.1 hcheck with ⟨hname, rfl⟩ | ⟨-, hzero, rfl⟩
      · exact .unnamed hname
      · exact .zero hzero
    · exact .wrongType rfl
    · exact .missing rfl
  | ok template =>
    by_cases hne : template = []
    · rw [controlString_of_empty hname (hne ▸ hfound)] at h
      cases h
    by_cases hcount : parameters.length ≤ Template.parameterCount
    · rcases c.expansion_cases parameters template with
        ⟨hsearch, hexpansion⟩ | ⟨hsearch, hcarries, hexpansion⟩ | ⟨hsearch, hcarries, -⟩
      · rw [controlString_of_expansion_error hb hs hc hname hne hfound hcount
          (congrArg Prod.fst hexpansion)] at h
        obtain rfl := Except.error.inj h
        exact .textual rfl hne hcount hsearch
      · rw [controlString_of_expansion_error hb hs hc hname hne hfound hcount
          (congrArg Prod.fst hexpansion)] at h
        obtain rfl := Except.error.inj h
        exact .unanswered rfl hne hcount hsearch hcarries
      · obtain ⟨padded, -, -, -, hanswer⟩ :=
          controlString_of_carriesOut hb hs hc hname hne hfound hcount hsearch hcarries lines
        rw [hanswer] at h
        cases h
    · rw [controlString_of_tooMany hs hc hname hne hfound (Nat.not_le.1 hcount)] at h
      obtain rfl := Except.error.inj h
      exact .tooMany rfl hne (Nat.not_le.1 hcount)

theorem controlString_of_refuses (hb : b.Coherent) (hs : t.session.Live b)
    (hc : (t.session.owned b).context = some c) {e : Error}
    (h : Refuses c name parameters ((t.session.getString name).run b).1 e) :
    ((t.controlStringAffecting lines name parameters).run b).1 = .error e := by
  cases h with
  | unnamed hname => exact controlString_of_unnamed hname
  | zero hzero =>
    have hname : name ≠ "" := by
      rintro rfl
      simp at hzero
    have hcheck := Session.checkName_error_iff.2 (.inr ⟨hname, hzero, rfl⟩)
    exact controlString_of_error hname (Session.getString_of_checkName hcheck)
  | wrongType hfound => exact controlString_of_error (ne_empty_of_found hfound (by simp)) hfound
  | missing hfound => exact controlString_of_error (ne_empty_of_found hfound (by simp)) hfound
  | tooMany hfound hne hcount =>
    exact controlString_of_tooMany hs hc (ne_empty_of_found hfound (by simp)) hne hfound hcount
  | textual hfound hne hcount hsearch =>
    exact controlString_of_expansion_error hb hs hc (ne_empty_of_found hfound (by simp)) hne hfound
      hcount (by rw [Context.expansion_of_takesString hsearch])
  | unanswered hfound hne hcount hsearch hcarries =>
    exact controlString_of_expansion_error hb hs hc (ne_empty_of_found hfound (by simp)) hne hfound
      hcount (by rw [Context.expansion_of_not_carriesOut hsearch hcarries])

variable [Sink ω]

theorem isInitialized_of_establish {host : Host} {config : Config} {out : ω}
    (h : ((establish host config out).run b).1 = .ok t) : t.session.isInitialized := by
  obtain ⟨-, session, hsession, rfl⟩ := establish_run_eq_ok_iff.1 (Prod.ext h rfl)
  exact Session.isInitialized_establish (congrArg Prod.fst hsession)

/-- Whatever has happened in a process so far, a control string is refused for the listed reasons and
no other. Otherwise the template is expanded and then padded, unless the expansion ends the process;
an empty template is its own control string. The provider carries out every template that takes no
text, and only a division can then end the process. -/
theorem controlString_complete (host : Host) (allocator : Allocator) (moves : List Move)
    (config : Config) (out : ω) (t : Terminal ω) (board : Switchboard) :
    let f := (Fleet.start host allocator).moveAll moves
    (establish f.host config out).run f.board = (.ok t, board) →
      ∃ term entry, Switchboard.Acquires f.host config.term term entry ∧
        ∀ (program : Closure ω α) (history : List Happening) (lines : Int32) (name : String)
          (parameters : List Int64),
          let s := ((Process.start f board t program).after history).station
          let found := (s.terminal.session.getString name).run s.board
          let answer := ((s.terminal.controlStringAffecting lines name parameters).run s.board).1
          s.terminal.session = t.session ∧ t.session.isInitialized ∧
            ∃ c, (t.session.owned s.board).context = some c ∧
              c.fixed = Context.load f.host term (Sink.descriptor out) entry ∧
              (∀ e, answer = .error e ↔ Refuses c name parameters found.1 e) ∧
              (found.1 = .ok [] → answer = .ok []) ∧
              (∀ template, found.1 = .ok template → template ≠ [] →
                parameters.length ≤ Template.parameterCount →
                Template.takesString template = false → c.carriesOut template = true →
                Template.crashes c.stored parameters template = false →
                  ∃ padded,
                    let expanded := (Template.expand c.stored parameters template).1
                    let expansion :=
                      (s.terminal.session.expandParameters template parameters).run found.2
                    expansion.1 = .ok expanded ∧
                      ((s.terminal.session.expandPadding expanded lines).run expansion.2).1 =
                        .ok padded ∧
                      (expanded = [] → padded = []) ∧ answer = .ok padded) ∧
              (∀ template, (∀ d ∈ Template.Scan.text.directives template, d.popsText = false) →
                c.carriesOut template = true ∧
                  ((∀ d ∈ Template.Scan.text.directives template, d.divides = false) →
                    Template.crashes c.stored parameters template = false)) ∧
              ∀ stored parameters template, 0 ∉ (Template.expand stored parameters template).1 := by
  intro f ht
  have hf : f.Coherent := (Fleet.coherent_start host allocator).moveAll moves
  have hi : t.session.isInitialized := isInitialized_of_establish (congrArg Prod.fst ht)
  obtain ⟨term, entry, hacquires, -, rfl, hstart⟩ := Process.lasts_start (α := α) hf ht
  refine ⟨term, entry, hacquires, ?_⟩
  intro program history lines name parameters s found answer
  have hlasts := (hstart program).after history
  have hsession : s.terminal.session = t.session := hlasts.nested.session
  have hb : s.board.Coherent := hlasts.coherent
  have hs : s.terminal.session.Live s.board := hsession ▸ hlasts.live
  obtain ⟨c, hc, hfixed⟩ := Option.map_eq_some_iff.1 hlasts.fixed
  have hc' : (s.terminal.session.owned s.board).context = some c := hsession ▸ hc
  refine ⟨hsession, hi, c, hc, hfixed, fun e ↦ ?_, fun hfound ↦ ?_, ?_, ?_, ?_⟩
  · exact ⟨refuses_of_controlString hb hs hc', controlString_of_refuses hb hs hc'⟩
  · exact controlString_of_empty (ne_empty_of_found hfound (by simp)) hfound
  · intro template hfound hne hcount hsearch hcarries _
    exact controlString_of_carriesOut hb hs hc' (ne_empty_of_found hfound (by simp)) hne hfound
      hcount hsearch hcarries lines
  · intro template htexts
    refine ⟨c.carriesOut_of_texts_eq_nil (Template.texts_eq_nil htexts), fun hdivides ↦ ?_⟩
    exact Template.crashes_eq_false fun d hd ↦ ⟨htexts d hd, hdivides d hd⟩
  · exact fun _ _ _ ↦ Bytes.zero_notMem_upToZero _

theorem controlString_complete_character :
    let cup := Bytes.ofText "%p1%\x7b4\x7d%-%c"
    let u6 := Bytes.ofText "%p1%#l%d"
    let entry : Entry := { strings := [("cup", .value cup), ("u6", .value u6)] }
    let host : Host := { entries := [("x", some entry)], edition := .checking }
    let f := (Fleet.start host .ascending).moveAll [.establish "s" (some "x") 1]
    let config : Config := { term := some "x" }
    let out : Rationed := { fd := 1 }
    let t : Terminal Rationed := { session := { context := some 2 }, out, config, term := "x" }
    let board := ((establish f.host config out).run f.board).2
    let program : Closure Rationed Unit := .perform (.write [1]) fun _ ↦ .leave (.returned ())
    let s := ((Process.start f board t program).after [.step, .move (.retire "s")]).station
    let answer := fun name parameters ↦
      ((s.terminal.controlStringAffecting 3 name parameters).run s.board).1
    (establish f.host config out).run f.board = (.ok t, board) ∧ answer "cup" [4] = .ok [128] ∧
      (∃ padded, answer "cup" [4] = .ok padded) ∧
      answer "cup" (List.replicate 10 4) = .error (.invalidArgument (.tooManyParameters 10)) ∧
      answer "u6" [5] = .error .expansionFailed := by
  intro cup u6 entry host f config out t board program s answer
  have ht : (establish f.host config out).run f.board = (.ok t, board) := rfl
  have hcup : ((s.terminal.session.getString "cup").run s.board).1 = .ok cup := by decide +kernel
  have hu6 : ((s.terminal.session.getString "u6").run s.board).1 = .ok u6 := by decide +kernel
  obtain ⟨term, entry', hacquires, hcontrol⟩ := controlString_complete (α := Unit) host .ascending
    [.establish "s" (some "x") 1] config out t board ht
  obtain rfl : Bytes.ofText "x" = term := Except.ok.inj hacquires.requested
  obtain rfl : entry = entry' := Option.some.inj hacquires.found
  have hall := hcontrol program [.step, .move (.retire "s")] 3
  obtain ⟨-, -, c, -, -, -, -, haccepted, hplain, -⟩ := hall "cup" [4]
  obtain ⟨hcarries, hends⟩ := hplain cup (by decide +kernel)
  obtain ⟨padded, -, -, -, hanswer⟩ := haccepted cup hcup (by decide +kernel) (by decide)
    (by decide +kernel) hcarries (hends (by decide +kernel))
  obtain ⟨-, -, c, -, -, hmany, -⟩ := hall "cup" (List.replicate 10 4)
  obtain ⟨-, -, c, -, hfixed, hrefused, -⟩ := hall "u6" [5]
  have hunanswered : c.carriesOut u6 = false := by
    rw [← Context.carriesOut_fixed, hfixed]
    decide +kernel
  refine ⟨ht, by decide +kernel, ⟨padded, hanswer⟩, ?_, ?_⟩
  · exact (hmany _).2 (.tooMany hcup (by decide +kernel) (by decide))
  · exact (hrefused _).2 (.unanswered hu6 (by decide +kernel) (by decide) (by decide +kernel)
      hunanswered)

/-- The search for texts passes over a length that has a mark. What comes of it depends on the edition
of the provider, and it is no refusal of the parameters in any. -/
theorem controlString_of_marked_length :
    let template := Bytes.ofText "%p1%#l%d"
    let entry : Entry := { strings := [("u6", .value template)] }
    let host := fun edition ↦ ({ entries := [("x", some entry)], edition } : Host)
    let config : Config := { term := some "x" }
    let out : Rationed := { fd := 1 }
    let t : Terminal Rationed := { session := { context := some 1 }, out, config, term := "x" }
    let run := fun edition ↦ (establish (host edition) config out).run (.start .ascending)
    let answer := fun edition ↦ ((t.controlStringAffecting 1 "u6" [0]).run (run edition).2).1
    (∃ d ∈ Template.Scan.text.directives template, d.popsText = true) ∧
      (∀ edition, (run edition).1 = .ok t) ∧ answer .trusting = .ok (Bytes.ofText "0") ∧
      answer .checking = .error .expansionFailed ∧
      ∀ edition, answer edition ≠ .error (.invalidArgument .stringParameters) := by
  intro template entry host config out t run answer
  have htrusting : answer .trusting = .ok (Bytes.ofText "0") := by decide +kernel
  have hchecking : answer .checking = .error .expansionFailed := by decide +kernel
  refine ⟨by decide +kernel, fun edition ↦ ?_, htrusting, hchecking, fun edition ↦ ?_⟩
  · cases edition <;> rfl
  · cases edition with
    | trusting => simp [htrusting]
    | checking => simp [hchecking]

end Terminal

end Terminfo
