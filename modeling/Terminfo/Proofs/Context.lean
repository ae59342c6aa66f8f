import Terminfo.Proofs.Switchboard

set_option autoImplicit false

namespace Terminfo

namespace Context

variable {c : Context} {name : String} {kind : Kind}

/-- The context without what templates have stored. -/
def fixed (c : Context) : Context := { c with stored := Template.Variables.zero }

theorem lookup_fixed : c.fixed.lookup name kind = c.lookup name kind := by
  cases kind <;> rfl

theorem fixed_expansion (parameters : List Int64) (template : Bytes) :
    (c.expansion parameters template).2.fixed = c.fixed := by
  rcases c.expansion_snd parameters template with hc | hc
  · rw [hc]
  · rw [hc]
    rfl

theorem carriesOut_fixed (template : Bytes) :
    c.fixed.carriesOut template = c.carriesOut template := rfl

theorem carriesOut_congr {c' : Context} (h : c'.fixed = c.fixed) (template : Bytes) :
    c'.carriesOut template = c.carriesOut template := by
  rw [← carriesOut_fixed, h, carriesOut_fixed]

theorem expansion_error_congr {c' : Context} (h : c'.fixed = c.fixed) {parameters : List Int64}
    {template : Bytes} {e : Error} : (c'.expansion parameters template).1 = .error e ↔
      (c.expansion parameters template).1 = .error e := by
  have hcarries := carriesOut_congr h template
  rcases c.expansion_cases parameters template with
    ⟨htext, hc⟩ | ⟨htext, hcarried, hc⟩ | ⟨htext, hcarried, hc⟩
  · rw [hc, expansion_of_takesString htext]
  · rw [hc, expansion_of_not_carriesOut htext (hcarries.trans hcarried)]
  · rw [hc, expansion_of_carriesOut htext (hcarries.trans hcarried)]
    simp only [reduceCtorEq]

theorem positive_filter {n : Option Int32} {k : Int32} (h : n.filter (0 < ·) = some k) : 0 < k := by
  simpa using (Option.filter_eq_some_iff.1 h).2

theorem dimension_pos {setting : Option Bytes} {reported : Option UInt16}
    {described : Option Int32} {usual : Int32} (husual : 0 < usual) :
    0 < dimension setting reported described usual := by
  unfold dimension
  cases hsetting : setting.bind Text.positive? with
  | some n =>
    obtain ⟨b, -, hb⟩ := Option.bind_eq_some_iff.1 hsetting
    exact positive_filter hb
  | none =>
    cases hreported : reported.filter (0 < ·) with
    | some n =>
      have hn : 0 < n := by simpa using (Option.filter_eq_some_iff.1 hreported).2
      change 0 < Int32.ofNat n.toNat
      have hpos : 0 < n.toNat := hn
      have hlt : n.toNat < 2 ^ 16 := n.toNat_lt
      rw [Int32.lt_iff_toInt_lt, Int32.toInt_ofNat_of_lt (by omega)]
      simpa using hpos
    | none =>
      cases hdescribed : described.filter (0 < ·) with
      | some n => simpa [hdescribed] using positive_filter hdescribed
      | none => simpa [hdescribed] using husual

theorem lines_load_pos (h : Host) (term : Bytes) (fd : Descriptor) (entry : Entry) :
    0 < (load h term fd entry).lines := dimension_pos (by decide)

theorem columns_load_pos (h : Host) (term : Bytes) (fd : Descriptor) (entry : Entry) :
    0 < (load h term fd entry).columns := dimension_pos (by decide)

theorem number?_nonneg (hlines : 0 < c.lines) (hcolumns : 0 < c.columns) {n : Int32}
    (h : c.number? name = some n) : 0 ≤ n := by
  unfold number? at h
  split at h
  · exact Option.some.inj h ▸ Int32.le_of_lt hlines
  · split at h
    · exact Option.some.inj h ▸ Int32.le_of_lt hcolumns
    · simpa using (Option.filter_eq_some_iff.1 h).2

end Context

namespace Switchboard

variable {h : Host} {term : Option String} {fd : Descriptor} {c : Context}

/-- A setup finds an entry that can be used, under a name that is given or else in the
environment. -/
structure Acquires (h : Host) (term : Option String) (name : Bytes) (entry : Entry) : Prop where
  checked : term.filter (·.toList.contains '\x00') = none
  requested : Provider.requested h (term.map Bytes.ofText) = .ok name
  found : Provider.find? h name = some entry
  specific : entry.flag "gn" = false
  softcopy : entry.flag "hc" = false

theorem Acquires.acquired {name : Bytes} {entry : Entry} (ha : Acquires h term name entry)
    (fd : Descriptor) : acquired h term fd = .ok (Context.load h name fd entry) := by
  have hloaded : Provider.loaded h (term.map Bytes.ofText) fd =
      .ok (Context.load h name fd entry) := by
    simp [Provider.loaded, ha.requested, ha.found, ha.specific, ha.softcopy]
  simp only [Switchboard.acquired, ha.checked, hloaded]
  rfl

theorem exists_acquires (hok : acquired h term fd = .ok c) :
    ∃ name entry, Acquires h term name entry ∧ c = Context.load h name fd entry := by
  unfold acquired at hok
  split at hok
  · cases hok
  · rename_i hchecked
    cases hloaded : Provider.loaded h (term.map Bytes.ofText) fd with
    | error fault => simp [hloaded, Except.mapError] at hok
    | ok loaded =>
      obtain rfl : loaded = c := by simpa [hloaded, Except.mapError] using hok
      unfold Provider.loaded at hloaded
      split at hloaded
      · cases hloaded
      · rename_i name hrequested
        split at hloaded
        · cases hloaded
        · rename_i entry hfound
          by_cases hgn : entry.flag "gn"
          · by_cases haddr : entry.canAddress <;> simp [hgn, haddr] at hloaded
          · by_cases hhc : entry.flag "hc"
            · simp [hgn, hhc] at hloaded
            · have hc : Context.load h name fd entry = loaded := by
                simpa [hgn, hhc] using hloaded
              exact ⟨name, entry, ⟨hchecked, hrequested, hfound, by simpa using hgn,
                by simpa using hhc⟩, hc.symm⟩

end Switchboard

end Terminfo
