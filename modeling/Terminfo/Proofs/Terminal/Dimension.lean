import Terminfo.Proofs.Session.Fixed
import Terminfo.Proofs.Text.Decimal

set_option autoImplicit false

namespace Terminfo

variable {ω : Type}

inductive Dimension
  | lines
  | columns
  deriving DecidableEq, Repr

namespace Dimension

def setting : Dimension → String
  | .lines => "LINES"
  | .columns => "COLUMNS"

def capability : Dimension → String
  | .lines => "lines"
  | .columns => "cols"

def cells (d : Dimension) (window : WindowRecord) : UInt16 :=
  match d with
  | .lines => window.row
  | .columns => window.col

def sampled (d : Dimension) (c : Context) : Int32 :=
  match d with
  | .lines => c.lines
  | .columns => c.columns

def reported (d : Dimension) (h : Host) (fd : Descriptor) : Option UInt16 :=
  (h.devices.tty? fd).map fun tty ↦ d.cells tty.window

/-- Where the number of a dimension comes from: the tty; the variable, if it is consulted and can be
read; and else the number that was fixed before. -/
inductive Resolves (reported : Option UInt16) (consulted : Bool) (setting : Option Bytes)
    (fixed : Int32) : Int32 → Prop
  | reported {n : UInt16} : reported = some n → n ≠ 0 →
      Resolves reported consulted setting fixed (Int32.ofNat n.toNat)
  | environment {b : Bytes} {n : Int32} : (∀ k, reported = some k → k = 0) → consulted = true →
      setting = some b → Text.Spells b n → Resolves reported consulted setting fixed n
  | fixed : (∀ k, reported = some k → k = 0) →
      (consulted = true → ∀ b n, setting = some b → ¬ Text.Spells b n) →
      Resolves reported consulted setting fixed fixed

section Resolves

variable {reported : Option UInt16} {consulted : Bool} {setting : Option Bytes} {fixed n m : Int32}

theorem Resolves.unique (h : Resolves reported consulted setting fixed n)
    (h' : Resolves reported consulted setting fixed m) : n = m := by
  cases h with
  | reported hreported hne =>
    cases h' with
    | reported hreported' _ =>
      obtain rfl := Option.some.inj (hreported.symm.trans hreported')
      rfl
    | environment hzero | fixed hzero => exact absurd (hzero _ hreported) hne
  | environment hzero hconsulted hset hspells =>
    cases h' with
    | reported hreported' hne' => exact absurd (hzero _ hreported') hne'
    | environment _ _ hset' hspells' =>
      obtain rfl := Option.some.inj (hset.symm.trans hset')
      exact Option.some.inj ((Text.spells_iff.1 hspells).symm.trans (Text.spells_iff.1 hspells'))
    | fixed _ hnone => exact absurd hspells (hnone hconsulted _ _ hset)
  | fixed hzero hnone =>
    cases h' with
    | reported hreported' hne' => exact absurd (hzero _ hreported') hne'
    | environment _ hconsulted hset hspells => exact absurd hspells (hnone hconsulted _ _ hset)
    | fixed => rfl

theorem Resolves.of_reported {k : UInt16} (h : Resolves reported consulted setting fixed n)
    (hreported : reported = some k) (hne : k ≠ 0) : n = Int32.ofNat k.toNat :=
  h.unique (.reported hreported hne)

theorem Resolves.of_not_consulted (h : Resolves reported false setting fixed n)
    (hzero : ∀ k, reported = some k → k = 0) : n = fixed :=
  h.unique (.fixed hzero fun hconsulted ↦ nomatch hconsulted)

theorem Resolves.eq_of_not_consulted {setting' : Option Bytes}
    (h : Resolves reported false setting fixed n) (h' : Resolves reported false setting' fixed m) :
    n = m := by
  cases h' with
  | reported hreported hne => exact h.of_reported hreported hne
  | environment _ hconsulted => cases hconsulted
  | fixed hzero => exact h.of_not_consulted hzero

end Resolves

end Dimension

theorem Context.lookup_sampled {c : Context} (hlines : 0 < c.lines) (hcolumns : 0 < c.columns)
    (d : Dimension) : c.lookup d.capability .numeric = .number (d.sampled c) := by
  have hhas : c.entry.has .numeric d.capability = true := by cases d <;> rfl
  rw [lookup_numeric hhas fun n hn ↦ number?_nonneg hlines hcolumns hn]
  cases d <;> rfl

theorem Session.getNumber_sampled {s : Session} {b : Switchboard} {c : Context}
    (hb : b.Coherent) (hs : s.Live b) (hfixed : (s.owned b).fixed = some c)
    (hlines : 0 < c.lines) (hcolumns : 0 < c.columns) (d : Dimension) :
    ((s.getNumber d.capability).run b).1 = .ok (d.sampled c) := by
  have hname : checkName d.capability = .ok () := by cases d <;> rfl
  rw [getNumber_run hb hs hfixed hname, Context.lookup_sampled hlines hcolumns d]
  rfl

theorem Environment.spells_iff {env : Environment} {name : String} {n : Int32} :
    ((env.text? name).bind fun s ↦ Text.decimal? (Text.trim s.toList)) = some n ↔
      ∃ b, env.get? name = some b ∧ Text.Spells b n := by
  simp only [text?, Option.bind_assoc, Text.spells_iff]
  exact Option.bind_eq_some_iff

theorem windowSize_reported (h : Host) (fd : Descriptor) :
    (windowSize h.devices fd).toOption.getD (0, 0) =
      ((Dimension.lines.reported h fd).getD 0, (Dimension.columns.reported h fd).getD 0) := by
  unfold windowSize WindowSize.getFrom Dimension.reported Devices.tty?
  cases h.devices.line fd <;> rfl

namespace Terminal

variable {t : Terminal ω} {b : Switchboard} {c : Context}

theorem resolves_fallback (hb : b.Coherent) (hs : t.session.Live b)
    (hfixed : (t.session.owned b).fixed = some c) (hlines : 0 < c.lines)
    (hcolumns : 0 < c.columns) (h : Host) (d : Dimension) {reported : Option UInt16}
    (hzero : ∀ k, reported = some k → k = 0) :
    ∃ n, ((t.fallbackDimension h d.setting d.capability).run b).1 = .ok n ∧
      Dimension.Resolves reported t.config.useEnvSize (h.env.get? d.setting) (d.sampled c) n := by
  have hnumber := Session.getNumber_sampled hb hs hfixed hlines hcolumns d
  unfold fallbackDimension
  cases t.config.useEnvSize with
  | false => exact ⟨_, hnumber, .fixed hzero fun hconsulted ↦ nomatch hconsulted⟩
  | true =>
    dsimp only
    rw [if_pos rfl]
    cases hvalue : (h.env.text? d.setting).bind fun s ↦ Text.decimal? (Text.trim s.toList) with
    | some n =>
      obtain ⟨b, hset, hn⟩ := Environment.spells_iff.1 hvalue
      exact ⟨n, rfl, .environment hzero rfl hset hn⟩
    | none =>
      refine ⟨_, hnumber, .fixed hzero fun _ b n hset hn ↦ ?_⟩
      have hsome := Environment.spells_iff.2 ⟨b, hset, hn⟩
      rw [hvalue] at hsome
      cases hsome

theorem resolves_dimension (hb : b.Coherent) (hs : t.session.Live b)
    (hfixed : (t.session.owned b).fixed = some c) (hlines : 0 < c.lines)
    (hcolumns : 0 < c.columns) (h : Host) (fd : Descriptor) (d : Dimension) :
    ∃ n, ((t.dimension h ((d.reported h fd).getD 0) d.setting d.capability).run b).1 = .ok n ∧
      Dimension.Resolves (d.reported h fd) t.config.useEnvSize (h.env.get? d.setting)
        (d.sampled c) n := by
  unfold dimension
  by_cases hreported : (d.reported h fd).getD 0 = 0
  · rw [if_pos hreported]
    refine resolves_fallback hb hs hfixed hlines hcolumns h d fun k hk ↦ ?_
    simpa [hk] using hreported
  · rw [if_neg hreported]
    cases hd : d.reported h fd with
    | none => simp [hd] at hreported
    | some k => exact ⟨_, rfl, .reported rfl (by simpa [hd] using hreported)⟩

theorem resolves_screenSize [Sink ω] (hb : b.Coherent) (hs : t.session.Live b)
    (hfixed : (t.session.owned b).fixed = some c) (hlines : 0 < c.lines)
    (hcolumns : 0 < c.columns) (h : Host) : ∃ size : Dimension → Int32,
      ((t.screenSize h).run b).1 = .ok (size .lines, size .columns) ∧
        ∀ d, Dimension.Resolves (d.reported h (Sink.descriptor t.out)) t.config.useEnvSize
          (h.env.get? d.setting) (d.sampled c) (size d) := by
  have htends := minds_dimension (t := t) h
    ((Dimension.lines.reported h (Sink.descriptor t.out)).getD 0) "LINES" "lines" b hb hs
  obtain ⟨l, hl, hlresolves⟩ :=
    resolves_dimension hb hs hfixed hlines hcolumns h (Sink.descriptor t.out) .lines
  obtain ⟨k, hk, hkresolves⟩ := resolves_dimension htends.coherent (htends.live hs)
    (htends.fixed.trans hfixed) hlines hcolumns h (Sink.descriptor t.out) .columns
  simp only [Dimension.setting, Dimension.capability] at hl hk
  refine ⟨fun d ↦ match d with | .lines => l | .columns => k, ?_, fun d ↦ ?_⟩
  · unfold screenSize
    simp only [windowSize_reported, Guarded.run_bind, hl, hk, Guarded.run_pure]
  · cases d with
    | lines => exact hlresolves
    | columns => exact hkresolves

end Terminal

end Terminfo
