import Mathlib.Data.Int.ModEq
import Terminfo.Template.Expansion

set_option autoImplicit false

namespace Terminfo.Template

/-- The upper-case variables that the directives read before they store into them, if they do. -/
def inputs : List Directive → List UInt8
  | [] => []
  | .load name :: ds => if isUpper name then name :: inputs ds else inputs ds
  | .store name :: ds => if isUpper name then (inputs ds).filter (· ≠ name) else inputs ds
  | _ :: ds => inputs ds

theorem load_mem_of_mem_inputs {name : UInt8} {ds : List Directive} (h : name ∈ inputs ds) :
    isUpper name ∧ .load name ∈ ds := by
  fun_induction inputs ds with
  | case1 => cases h
  | case2 other ds hupper ih =>
    rcases List.mem_cons.1 h with rfl | h
    · exact ⟨hupper, List.mem_cons_self⟩
    · exact ⟨(ih h).1, List.mem_cons_of_mem _ (ih h).2⟩
  | case3 other ds hupper ih => exact ⟨(ih h).1, List.mem_cons_of_mem _ (ih h).2⟩
  | case4 other ds hupper ih =>
    have hrest := ih (List.mem_filter.1 h).1
    exact ⟨hrest.1, List.mem_cons_of_mem _ hrest.2⟩
  | case5 other ds hupper ih => exact ⟨(ih h).1, List.mem_cons_of_mem _ (ih h).2⟩
  | case6 d ds hload hstore ih => exact ⟨(ih h).1, List.mem_cons_of_mem _ (ih h).2⟩

theorem mem_inputs_toList_append {name : UInt8} {ds : List Directive} (h : name ∈ inputs ds)
    (d : Option Directive) :
    name ∈ inputs (d.toList ++ ds) ∨ isUpper name ∧ d = some (.store name) := by
  cases d with
  | none => exact .inl h
  | some d =>
    cases d with
    | load other =>
      left
      simp only [Option.toList_some, List.singleton_append, inputs]
      split
      · exact List.mem_cons_of_mem _ h
      · exact h
    | store other =>
      simp only [Option.toList_some, List.singleton_append, inputs]
      by_cases hname : name = other
      · exact .inr ⟨(load_mem_of_mem_inputs h).1, by rw [hname]⟩
      · left
        split
        · exact List.mem_filter.2 ⟨h, by simpa using hname⟩
        · exact h
    | _ => exact .inl h

def lower (parameters : List (Option Int64)) : List (Option Int32) :=
  parameters.map (·.map (·.toInt32))

/-- One may be added before the lower half is taken or after. -/
theorem lower_increment (parameters : List (Option Int64)) :
    lower ((parameters.take 2).map (·.map (· + 1)) ++ parameters.drop 2) =
      ((lower parameters).take 2).map (·.map (· + 1)) ++ (lower parameters).drop 2 := by
  have hslot (slot : Option Int64) :
      (slot.map (· + 1)).map (·.toInt32) = (slot.map (·.toInt32)).map (· + 1) := by
    simp only [Option.map_map, Function.comp_def, Int64.toInt32_add]
    rfl
  simp only [lower, List.map_append, List.map_take, List.map_drop, List.map_map,
    Function.comp_def, hslot]

namespace Machine

variable {known : UInt8 → Prop} {m m' : Machine}

/-- Machines that differ in no more than the upper halves of their parameters and the values of
upper-case variables that are not known. -/
inductive Agrees (known : UInt8 → Prop) (m : Machine) : Machine → Prop
  | intro {parameters : List (Option Int64)} {stored : Variables}
      (hparameters : lower parameters = lower m.parameters)
      (hstored : ∀ name, known name → stored name = m.stored name) :
      Agrees known m { m with parameters, stored }

theorem parameter_eq (m : Machine) (i : Nat) :
    m.parameter i = (lower m.parameters)[i]?.join.getD 0 := by
  simp only [parameter, lower, List.getElem?_map]
  cases m.parameters[i]? with
  | none => rfl
  | some slot => cases slot <;> rfl

theorem item_eq (m : Machine) (i : Nat) :
    m.item i = if (lower m.parameters)[i]? = some none then .text i
      else .number ((lower m.parameters)[i]?.join.getD 0) := by
  simp [item, parameter_eq, lower]

namespace Agrees

theorem mono {known' : UInt8 → Prop} (h : m.Agrees known m')
    (hknown : ∀ name, known' name → known name) : m.Agrees known' m' := by
  cases h with
  | intro hparameters hstored =>
    exact .intro hparameters fun name hname ↦ hstored name (hknown name hname)

theorem mode (h : m.Agrees known m') : m'.mode = m.mode := by cases h; rfl

theorem output (h : m.Agrees known m') : m'.output = m.output := by cases h; rfl

theorem stored (h : m.Agrees known m') (name : UInt8) (hname : known name) :
    m'.stored name = m.stored name := by
  cases h with
  | intro hparameters hstored => exact hstored name hname

theorem top (h : m.Agrees known m') : m'.top = m.top := by cases h; rfl

theorem item (h : m.Agrees known m') (i : Nat) : m'.item i = m.item i := by
  cases h with
  | intro hparameters hstored => simp only [item_eq, hparameters]

theorem withMode (h : m.Agrees known m') (mode : Mode) :
    Agrees known { m with mode } { m' with mode } := by
  cases h with
  | intro hparameters hstored => exact .intro hparameters hstored

theorem drop (h : m.Agrees known m') : m.drop.Agrees known m'.drop := by
  cases h with
  | intro hparameters hstored => exact .intro hparameters hstored

theorem write (h : m.Agrees known m') (b : Bytes) : (m.write b).Agrees known (m'.write b) := by
  cases h with
  | intro hparameters hstored => exact .intro hparameters hstored

theorem push (h : m.Agrees known m') (x : Item) : (m.push x).Agrees known (m'.push x) := by
  cases h with
  | intro hparameters hstored =>
    unfold Machine.push
    split
    · exact .intro hparameters hstored
    · exact .intro hparameters hstored

theorem pushParameter (h : m.Agrees known m') (b : UInt8) :
    (m.pushParameter b).Agrees known (m'.pushParameter b) := by
  unfold Machine.pushParameter
  split
  · rw [h.item]
    exact h.push _
  · exact h

theorem load (h : m.Agrees known m') {name : UInt8} (hname : isUpper name → known name) :
    (m.load name).Agrees known (m'.load name) := by
  unfold Machine.load
  by_cases hupper : isUpper name
  · rw [if_pos hupper, if_pos hupper, h.stored name (hname hupper)]
    exact h.push _
  · rw [if_neg hupper, if_neg hupper]
    split
    · cases h with
      | intro hparameters hstored => exact (Agrees.intro hparameters hstored).push _
    · exact h

theorem store (h : m.Agrees known m') (name : UInt8) :
    (m.store name).Agrees (fun other ↦ known other ∨ isUpper name ∧ other = name)
      (m'.store name) := by
  cases h with
  | intro hparameters hstored =>
    unfold Machine.store
    by_cases hupper : isUpper name
    · rw [if_pos hupper, if_pos hupper]
      refine .intro hparameters fun other hother ↦ ?_
      by_cases heq : other = name
      · simp only [Variables.set, heq, if_true]
        rfl
      · simp only [Variables.set, heq, if_false]
        exact hstored other (hother.resolve_right fun hself ↦ heq hself.2)
    · rw [if_neg hupper, if_neg hupper]
      have hknown (other : UInt8) (hother : known other ∨ isUpper name ∧ other = name) :
          known other := hother.resolve_right fun hself ↦ hupper hself.1
      split
      · exact .intro hparameters fun other hother ↦ hstored other (hknown other hother)
      · exact .intro hparameters fun other hother ↦ hstored other (hknown other hother)

theorem increment (h : m.Agrees known m') : m.increment.Agrees known m'.increment := by
  cases h with
  | @intro parameters stored hparameters hstored =>
    have hraised := lower_increment parameters
    rw [hparameters, ← lower_increment] at hraised
    unfold Machine.increment
    by_cases hdone : m.incremented
    · rw [if_pos hdone, if_pos hdone]
      exact .intro hparameters hstored
    · simp only [hdone, Bool.false_eq_true, if_false, parameter_eq, hraised]
      split
      · exact .intro hraised hstored
      · exact .intro hraised hstored

theorem perform (h : m.Agrees known m') (d : Directive)
    (hd : ∀ name, d = .load name → isUpper name → known name) :
    (m.perform d).Agrees (fun name ↦ known name ∨ isUpper name ∧ d = .store name)
      (m'.perform d) := by
  have hkeep {n n' : Machine} (hn : n.Agrees known n') (hstore : ∀ name, d ≠ .store name) :
      n.Agrees (fun name ↦ known name ∨ isUpper name ∧ d = .store name) n' :=
    hn.mono fun name hname ↦ hname.resolve_right fun hself ↦ hstore name hself.2
  cases d with
  | store name =>
    refine (h.store name).mono fun other hother ↦ hother.imp_right fun hself ↦ ?_
    obtain rfl := Directive.store.inj hself.2
    exact ⟨hself.1, rfl⟩
  | load name => exact hkeep (h.load (hd name rfl)) nofun
  | parameter b => exact hkeep (h.pushParameter b) nofun
  | increment => exact hkeep h.increment nofun
  | branch =>
    refine hkeep ?_ nofun
    simp only [Machine.perform, h.top]
    split
    · exact h.drop.withMode _
    · exact h.drop
  | otherwise => exact hkeep (h.withMode _) nofun
  | literal b => exact hkeep (h.write _) nofun
  | printNumber f c =>
    simp only [Machine.perform, h.top]
    exact hkeep (h.drop.write _) nofun
  | printByte =>
    simp only [Machine.perform, h.top]
    exact hkeep (h.drop.write _) nofun
  | printText f => exact hkeep (h.drop.write _) nofun
  | textLength => exact hkeep (h.drop.push _) nofun
  | character b | constant n => exact hkeep (h.push _) nofun
  | binary op =>
    simp only [Machine.perform, h.top, h.drop.top]
    exact hkeep (h.drop.drop.push _) nofun
  | unary op =>
    simp only [Machine.perform, h.top]
    exact hkeep (h.drop.push _) nofun
  | idle => exact hkeep h nofun

theorem directive? (h : m.Agrees known m') (b : UInt8) :
    m'.mode.directive? b = m.mode.directive? b := by rw [h.mode]

theorem feed (h : m.Agrees known m') (b : UInt8)
    (hd : ∀ name, m.mode.directive? b = some (.load name) → isUpper name → known name) :
    (m.feed b).Agrees
      (fun name ↦ known name ∨ isUpper name ∧ m.mode.directive? b = some (.store name))
      (m'.feed b) := by
  unfold Machine.feed
  rw [h.mode]
  cases hdirective : m.mode.directive? b with
  | none => exact (h.withMode _).mono fun name hname ↦ hname.resolve_right nofun
  | some d =>
    refine ((h.withMode _).perform d fun name hname ↦ hd name (hname ▸ hdirective)).mono ?_
    exact fun name hname ↦ hname.imp_right fun hself ↦ ⟨hself.1, Option.some.inj hself.2⟩

/-- Machines that agree on what a run reads carry out the same directives and print the same. -/
theorem run (h : m.Agrees known m') (template : Bytes)
    (hknown : ∀ name ∈ inputs (m.trace template), known name) :
    m'.trace template = m.trace template ∧ (m.run template).Agrees known (m'.run template) := by
  -- What the first directive stores is known to the rest.
  induction template generalizing m m' known with
  | nil => exact ⟨rfl, h⟩
  | cons b template ih =>
    have hfeed := h.feed b fun name hname hupper ↦ hknown name (by
      simp [trace, hname, inputs, hupper])
    obtain ⟨htrace, hrun⟩ := ih hfeed fun name hname ↦
      (mem_inputs_toList_append hname _).imp_left (hknown name)
    refine ⟨?_, hrun.mono fun name hname ↦ .inl hname⟩
    rw [trace, trace, h.directive?, htrace]

end Agrees

end Machine

section Expand

variable {stored stored' : Variables} {parameters parameters' : List Int64}

theorem toInt32_eq_of_modEq {n n' : Int64} (h : n'.toInt ≡ n.toInt [ZMOD 2 ^ 32]) :
    n'.toInt32 = n.toInt32 := by
  rw [← Int32.toInt_inj, Int64.toInt_toInt32, Int64.toInt_toInt32, ← Int.emod_bmod n'.toInt,
    ← Int.emod_bmod n.toInt]
  exact congrArg (Int.bmod · (2 ^ 32)) h

theorem map_toInt32_slots
    (h : ∀ i < parameterCount,
      (parameters'[i]?.getD 0).toInt ≡ (parameters[i]?.getD 0).toInt [ZMOD 2 ^ 32]) :
    (slots parameters').map (·.toInt32) = (slots parameters).map (·.toInt32) := by
  simp only [slots, List.map_map]
  exact List.map_congr_left fun i hi ↦ toInt32_eq_of_modEq (h i (List.mem_range.1 hi))

theorem Usage.lower_see (u : Usage) (slots : List Int64) :
    lower (slots.mapIdx u.see) = (slots.map (·.toInt32)).mapIdx fun i n ↦
      if i ∈ u.texts then none else if u.explicit ∨ i < u.wanted then some n else some 0 := by
  refine List.ext_getElem? fun i ↦ ?_
  simp only [lower, List.getElem?_map, List.getElem?_mapIdx, Option.map_map]
  refine congrArg (Option.map · slots[i]?) (funext fun n ↦ ?_)
  simp only [Function.comp_apply, Usage.see]
  split
  · rfl
  · split <;> rfl

theorem start_agrees {known : UInt8 → Prop} (template : Bytes)
    (hslots : (slots parameters').map (·.toInt32) = (slots parameters).map (·.toInt32))
    (hstored : ∀ name, known name → stored' name = stored name) :
    (start stored parameters template).Agrees known (start stored' parameters' template) := by
  have hlower : lower ((slots parameters').mapIdx (Usage.ofTemplate template).see) =
      lower ((slots parameters).mapIdx (Usage.ofTemplate template).see) := by
    rw [Usage.lower_see, Usage.lower_see, hslots]
  have hstart := Machine.Agrees.intro (m := start stored parameters template) hlower hstored
  simpa only [start, List.map_take, hslots] using hstart

theorem expand_fst_congr {template : Bytes}
    (hslots : (slots parameters').map (·.toInt32) = (slots parameters).map (·.toInt32))
    (hstored : ∀ name ∈ inputs ((start stored parameters template).trace template),
      stored' name = stored name) :
    (expand stored' parameters' template).1 = (expand stored parameters template).1 := by
  obtain ⟨-, hrun⟩ := (start_agrees template hslots hstored).run template fun _ hname ↦ hname
  simp only [expand, hrun.output]

theorem expand_congr (stored : Variables) (template : Bytes)
    (hslots : (slots parameters').map (·.toInt32) = (slots parameters).map (·.toInt32)) :
    expand stored parameters' template = expand stored parameters template := by
  have hstart : (start stored parameters template).Agrees (fun _ ↦ True)
      (start stored parameters' template) := start_agrees template hslots fun _ _ ↦ rfl
  obtain ⟨-, hrun⟩ := hstart.run template fun _ _ ↦ trivial
  have hstored := funext fun name ↦ hrun.stored name trivial
  simp only [expand, hrun.output, hstored]

end Expand

end Terminfo.Template
