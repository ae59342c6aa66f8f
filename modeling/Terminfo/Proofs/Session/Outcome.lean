import Terminfo.Proofs.Template.Element
import Terminfo.Session

set_option autoImplicit false

namespace Terminfo

theorem Capability.asString_error {c : Capability} {name : String} {e : Error}
    (h : c.asString name = .error e) : e = .wrongType name .string ∨ e = .absentOrCanceled name := by
  cases c with
  | string value => cases h
  | missing => exact .inr (Except.error.inj h).symm
  | boolean value | number value | notThisType => exact .inl (Except.error.inj h).symm

theorem Provider.zero_notMem_of_lookup {p : Provider} {name : String} {template : Bytes}
    (h : (p.lookup name .string).asString name = .ok template) : 0 ∉ template := by
  unfold lookup at h
  cases hc : p.context? with
  | none => simp [hc, Capability.asString] at h
  | some c =>
    rw [hc, Option.map_some, Option.getD_some] at h
    cases hhas : c.entry.has .string name with
    | false =>
      rw [Context.lookup_of_not_has hhas] at h
      cases h
    | true =>
      rw [Context.lookup_string hhas] at h
      unfold Entry.string? at h
      cases hset : (c.entry.strings.lookup name).bind Setting.value? with
      | none => simp [hset, Capability.asString] at h
      | some value =>
        simp only [hset, Option.map_some, Option.getD_some, Capability.asString,
          Except.ok.injEq] at h
        rw [← h]
        exact Bytes.zero_notMem_upToZero value

namespace Switchboard

variable {b : Switchboard} {parameters : List Int64} {template expanded : Bytes}

/-- Where every context carries the template out, the search for texts alone can refuse it. -/
theorem expand_error_iff {e : Error}
    (hcarries : Template.takesString template = false → ∀ c : Context, c.carriesOut template = true) :
    (b.expand parameters template).1 = .error e ↔
      Template.takesString template = true ∧ e = .invalidArgument .stringParameters := by
  unfold expand
  cases h : Template.takesString template with
  | true => simp [eq_comm (a := e)]
  | false =>
    have hexpand : ∃ expanded, (b.provider.expand parameters template).1 = some expanded := by
      unfold Provider.expand
      split
      · simp [Context.expand, hcarries h]
      · exact ⟨[], rfl⟩
    obtain ⟨expanded, hexpanded⟩ := hexpand
    simp [hexpanded]

theorem pad_nil (caller : Nat) (lines : Int32) : (b.pad caller lines []).1 = [] := by
  have hemitted : b.provider.emitted lines [] = [] := by
    unfold Provider.emitted
    cases b.provider.context? <;> rfl
  rw [pad, hemitted]
  rfl

end Switchboard

namespace Session

variable {α : Type} {s : Session} {b : Switchboard} {name : String} {template : Bytes}
  {parameters : List Int64} {e : Error}

theorem checkTemplate_ok (h : 0 ∉ template) : checkTemplate template = .ok () := by
  simp [checkTemplate, h]

theorem checkName_ok (hname : name ≠ "") (hzero : '\x00' ∉ name.toList) :
    checkName name = .ok () := by
  simp [checkName, hname, hzero]

theorem checkName_error_iff : checkName name = .error e ↔
    name = "" ∧ e = .missingArgument .capabilityName ∨
      name ≠ "" ∧ '\x00' ∈ name.toList ∧ e = .invalidArgument (.zeroInCapabilityName name) := by
  unfold checkName
  by_cases hname : name = ""
  · simp [hname, eq_comm (a := e)]
  · by_cases hzero : '\x00' ∈ name.toList
    · simp [hname, hzero, eq_comm (a := e)]
    · simp [hname, hzero]

theorem checkExpansion_error_iff (ht : template ≠ []) (hzero : 0 ∉ template) :
    checkExpansion template parameters = .error e ↔
      Template.parameterCount < parameters.length ∧
        e = .invalidArgument (.tooManyParameters parameters.length) := by
  have hempty : template.isEmpty = false := by simpa using ht
  unfold checkExpansion checkParameters
  rw [hempty, checkTemplate_ok hzero]
  by_cases hcount : Template.parameterCount < parameters.length
  · simp [hcount, eq_comm (a := e), bind, Except.bind]
  · simp [hcount, bind, Except.bind]

theorem checkExpansion_ok (ht : template ≠ []) (hzero : 0 ∉ template)
    (hcount : parameters.length ≤ Template.parameterCount) :
    checkExpansion template parameters = .ok () := by
  cases h : checkExpansion template parameters with
  | error e => exact absurd ((checkExpansion_error_iff ht hzero).1 h).1 (Nat.not_lt.2 hcount)
  | ok _ => rfl

theorem activated_eq (hs : s.isInitialized) :
    ∃ a, ∀ f : Switchboard → Except Error α × Switchboard,
      (s.activated f).run b = f (b.activate a) := by
  obtain ⟨a, ha⟩ := Option.isSome_iff_exists.1 hs
  exact ⟨a, fun f ↦ by simp [activated, ha]⟩

theorem isInitialized_establish {h : Host} {term : Option String} {fd : Descriptor}
    (hs : ((establish h term fd).run b).1 = .ok s) : s.isInitialized := by
  simp only [establish, init, isInitialized, Option.isSome_none, Bool.false_eq_true, if_false,
    Guarded.run_bind, Guarded.run_holding] at hs
  cases hsetup : (b.setup h term fd).1 with
  | error e => simp [hsetup] at hs
  | ok a =>
    simp only [hsetup, Guarded.run_pure] at hs
    obtain rfl := Except.ok.inj hs
    rfl

theorem getString_of_checkName (h : checkName name = .error e) :
    ((s.getString name).run b).1 = .error e := by
  simp [getString, lookup, h, Except.bind]

theorem getString_of_checked (hs : s.isInitialized) (h : checkName name = .ok ()) :
    ∃ p : Provider, ((s.getString name).run b).1 = (p.lookup name .string).asString name := by
  obtain ⟨a, hactivated⟩ := activated_eq (α := Capability) (b := b) hs
  refine ⟨(b.activate a).provider, ?_⟩
  simp only [getString, lookup, h, Guarded.run_bind, Guarded.run_pure, hactivated]
  rfl

theorem getString_error (hs : s.isInitialized) (h : ((s.getString name).run b).1 = .error e) :
    checkName name = .error e ∨ e = .wrongType name .string ∨ e = .absentOrCanceled name := by
  cases hcheck : checkName name with
  | error e' =>
    rw [getString_of_checkName hcheck] at h
    obtain rfl := Except.error.inj h
    exact .inl rfl
  | ok _ =>
    obtain ⟨p, hfound⟩ := getString_of_checked (b := b) hs hcheck
    exact .inr (Capability.asString_error (hfound.symm.trans h))

theorem zero_notMem_of_getString (hs : s.isInitialized)
    (h : ((s.getString name).run b).1 = .ok template) : 0 ∉ template := by
  cases hcheck : checkName name with
  | error e' =>
    rw [getString_of_checkName hcheck] at h
    cases h
  | ok _ =>
    obtain ⟨p, hfound⟩ := getString_of_checked (b := b) hs hcheck
    exact Provider.zero_notMem_of_lookup (hfound.symm.trans h)

theorem expandParameters_error_iff (hs : s.isInitialized) (ht : template ≠ [])
    (hzero : 0 ∉ template)
    (hcarries : Template.takesString template = false → ∀ c : Context, c.carriesOut template = true) :
    ((s.expandParameters template parameters).run b).1 = .error e ↔
      Template.parameterCount < parameters.length ∧
          e = .invalidArgument (.tooManyParameters parameters.length) ∨
        parameters.length ≤ Template.parameterCount ∧ Template.takesString template = true ∧
          e = .invalidArgument .stringParameters := by
  obtain ⟨a, hactivated⟩ := activated_eq (α := Bytes) (b := b) hs
  unfold expandParameters
  cases hcheck : checkExpansion template parameters with
  | error e' =>
    obtain ⟨hcount, rfl⟩ := (checkExpansion_error_iff ht hzero).1 hcheck
    simp [hcount, Nat.not_le.2 hcount, eq_comm (a := e)]
  | ok _ =>
    have hcount : ¬ Template.parameterCount < parameters.length := by
      intro hcount
      have herror := (checkExpansion_error_iff ht hzero).2 ⟨hcount, rfl⟩
      rw [hcheck] at herror
      cases herror
    simp only [hactivated, Switchboard.expand_error_iff hcarries]
    simp [hcount, Nat.not_lt.1 hcount]

theorem expandPadding_ok (hs : s.isInitialized) (hzero : 0 ∉ template) (lines : Int32) :
    ∃ padded, ((s.expandPadding template lines).run b).1 = .ok padded ∧
      (template = [] → padded = []) := by
  obtain ⟨a, hactivated⟩ := activated_eq (α := Bytes) (b := b) hs
  unfold expandPadding
  rw [checkTemplate_ok hzero]
  simp only [hactivated]
  refine ⟨_, rfl, ?_⟩
  rintro rfl
  exact Switchboard.pad_nil 0 lines

end Session

/-- The search for texts is exact on the templates that the language describes: it finds one where an
element takes one, and nowhere else. These are the templates for which an expansion fails. -/
theorem Template.search_exact (elements : List Template.Element) :
    (takesString (compose elements) = true ↔ ∃ x ∈ elements, x.takesText) ∧
      ∀ (s : Session) (b : Switchboard) (parameters : List Int64) (e : Error), s.isInitialized →
        compose elements ≠ [] → 0 ∉ compose elements → parameters.length ≤ parameterCount →
          (((s.expandParameters (compose elements) parameters).run b).1 = .error e ↔
            (∃ x ∈ elements, x.takesText) ∧ e = .invalidArgument .stringParameters) := by
  refine ⟨takesString_compose elements, ?_⟩
  intro s b parameters e hs hne hzero hcount
  have hcarries (hsearch : takesString (compose elements) = false) (c : Context) :
      c.carriesOut (compose elements) = true := by
    refine c.carriesOut_of_texts_eq_nil (texts_eq_nil (Element.directives_compose fun x hx ↦ ?_))
    refine Bool.eq_false_iff.2 fun htakes ↦ ?_
    rw [(takesString_compose elements).2 ⟨x, hx, htakes⟩] at hsearch
    cases hsearch
  rw [Session.expandParameters_error_iff hs hne hzero hcarries, takesString_compose]
  simp [hcount, Nat.not_lt.2 hcount]

theorem Template.search_exact_letters :
    let quoted : List Template.Element :=
      [.parameter ⟨0, by decide⟩, .character Bytes.percent, .plain '-' (by decide),
        .store 115 (by decide), .literal 115 (by decide), .load 108 (by decide), .number [48, 55] (by decide +kernel),
        .plain '%' (by decide), .literal 108 (by decide),
        .conversion { colon := true, flags := [45], width := [53], precision := some [50] } 'd'
          (by decide)]
    let texts := quoted ++ [.conversion { colon := true, flags := [45, 43] } 's' (by decide)]
    let s : Session := { context := some 1 }
    let b := Switchboard.start .ascending
    s.isInitialized ∧ compose quoted = Bytes.ofText "%p1%'%'%-%Pss%gl%{07}%%l%:-5.2d" ∧
      0 ∉ compose quoted ∧ compose texts = Bytes.ofText "%p1%'%'%-%Pss%gl%{07}%%l%:-5.2d%:-+s" ∧
      0 ∉ compose texts ∧ (∀ e, ((s.expandParameters (compose quoted) [4]).run b).1 ≠ .error e) ∧
      ((s.expandParameters (compose texts) [4]).run b).1 =
        .error (.invalidArgument .stringParameters) := by
  intro quoted texts s b
  have hquoted : compose quoted = Bytes.ofText "%p1%'%'%-%Pss%gl%{07}%%l%:-5.2d" := by
    decide +kernel
  have htexts : compose texts = Bytes.ofText "%p1%'%'%-%Pss%gl%{07}%%l%:-5.2d%:-+s" := by
    decide +kernel
  have hzero : 0 ∉ compose quoted := by decide +kernel
  have hzero' : 0 ∉ compose texts := by decide +kernel
  have hno : ¬ ∃ x ∈ quoted, x.takesText := by decide +kernel
  refine ⟨rfl, hquoted, hzero, htexts, hzero', fun e he ↦ hno ?_, ?_⟩
  · exact (((search_exact quoted).2 s b [4] e rfl (by decide +kernel) hzero (by decide)).1 he).1
  · refine ((search_exact texts).2 s b [4] _ rfl (by decide +kernel) hzero' (by decide)).2 ⟨?_, rfl⟩
    decide +kernel

end Terminfo
