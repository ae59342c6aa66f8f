import Terminfo.Proofs.Terminal.Dimension
import Terminfo.Proofs.Terminal.Process
import Terminfo.Sink.Rationed

set_option autoImplicit false

namespace Terminfo

variable {ω α : Type}

theorem Dimension.reported_resize {h : Host} {fd fd' : Descriptor} {line : Nat}
    (hline : h.devices.line fd = .ok line) (hline' : h.devices.line fd' = .ok line)
    (rows cols : UInt16) (d : Dimension) :
    d.reported (h.resize fd' rows cols).2 fd = some (d.cells ⟨rows, cols, 0, 0⟩) := by
  have hdevices : (h.resize fd' rows cols).2.devices =
      h.devices.setWindow line ⟨rows, cols, 0, 0⟩ := by
    simp only [Host.resize, setWindowSize, WindowSize.setOn, hline']
    rfl
  simp only [reported, Devices.tty?, hdevices, Devices.line_setWindow, hline, Except.toOption,
    Option.map_some, Devices.window_setWindow_self]

theorem Dimension.Resolves.pos_iff {reported : Option UInt16} {consulted : Bool}
    {setting : Option Bytes} {fixed n : Int32}
    (h : Dimension.Resolves reported consulted setting fixed n) (hfixed : 0 < fixed) :
    0 < n ↔ ¬ ((∀ k, reported = some k → k = 0) ∧ consulted = true ∧
      ∃ b m, setting = some b ∧ Text.Spells b m ∧ m ≤ 0) := by
  constructor
  · rintro hpos ⟨hzero, hconsulted, b, m, hset, hspells, hle⟩
    obtain rfl := h.unique (.environment hzero hconsulted hset hspells)
    exact absurd hpos (Int32.not_lt.2 hle)
  · intro hno
    cases h with
    | @reported k hreported hne =>
      have hpos : 0 < k.toNat := Nat.pos_of_ne_zero fun h ↦ hne (UInt16.toNat_inj.1 h)
      have hlt : k.toNat < 2 ^ 16 := k.toNat_lt
      rw [Int32.lt_iff_toInt_lt, Int32.toInt_ofNat_of_lt (by omega)]
      simpa using hpos
    | environment hzero hconsulted hset hspells =>
      refine Int32.not_le.1 fun hle ↦ hno ⟨hzero, hconsulted, _, _, hset, hspells, hle⟩
    | fixed => exact hfixed

namespace Process

variable [Sink ω] {p : Process ω α} {t : Terminal ω} {c : Context} {size size' : Dimension → Int32}

structure Measures (p : Process ω α) (size : Dimension → Int32) : Prop where
  both : ((p.station.terminal.screenSize p.station.host).run p.station.board).1 =
    .ok (size .lines, size .columns)
  lines : ((p.station.terminal.screenLines p.station.host).run p.station.board).1 =
    .ok (size .lines)
  columns : ((p.station.terminal.screenColumns p.station.host).run p.station.board).1 =
    .ok (size .columns)

theorem Measures.of_both (h : ((p.station.terminal.screenSize p.station.host).run
    p.station.board).1 = .ok (size .lines, size .columns)) : p.Measures size := by
  refine ⟨h, ?_, ?_⟩ <;>
    simp only [Terminal.screenLines, Terminal.screenColumns, Guarded.run_bind, Guarded.run_pure, h,
      Except.map]

theorem Measures.unique (h : p.Measures size) (h' : p.Measures size') : size = size' := by
  have hboth := Except.ok.inj (h.both.symm.trans h'.both)
  funext d
  cases d with
  | lines => exact congrArg Prod.fst hboth
  | columns => exact congrArg Prod.snd hboth

theorem Lasts.exists_measures (h : p.Lasts t c) (hlines : 0 < c.lines) (hcolumns : 0 < c.columns) :
    ∃ size, p.Measures size ∧
      ∀ d : Dimension, Dimension.Resolves (d.reported p.station.host (Sink.descriptor t.out))
        t.config.useEnvSize (p.station.host.env.get? d.setting) (d.sampled c) (size d) := by
  have hsession : p.station.terminal.session = t.session := h.nested.session
  have hconfig : p.station.terminal.config = t.config := h.nested.config
  obtain ⟨size, hboth, hresolves⟩ := Terminal.resolves_screenSize h.coherent
    (hsession ▸ h.live) (hsession ▸ h.fixed) hlines hcolumns p.station.host
  rw [h.descriptor, hconfig] at hresolves
  exact ⟨size, .of_both hboth, hresolves⟩

theorem exists_sampled {f : Fleet} {config : Config} {out : ω} {board : Switchboard}
    (hf : f.Coherent) (ht : (Terminal.establish f.host config out).run f.board = (.ok t, board)) :
    ∃ name entry, Switchboard.Acquires f.host config.term name entry ∧
      let fd := Sink.descriptor out
      let sampled := Context.load f.host name fd entry
      (∀ d : Dimension,
        ((t.session.getNumber d.capability).run board).1 = .ok (d.sampled sampled)) ∧
        ∀ (program : Closure ω α) (history : List Happening),
          let p := (start f board t program).after history
          ∃ size, p.Measures size ∧ ∀ d : Dimension, Dimension.Resolves
            (d.reported p.station.host fd) config.useEnvSize (p.station.host.env.get? d.setting)
            (d.sampled sampled) (size d) := by
  obtain ⟨name, entry, hacquires, rfl, rfl, hlasts⟩ := lasts_start (α := α) hf ht
  have hlines := Context.lines_load_pos f.host name (Sink.descriptor t.out) entry
  have hcolumns := Context.columns_load_pos f.host name (Sink.descriptor t.out) entry
  refine ⟨name, entry, hacquires, fun d ↦ ?_, fun program history ↦ ?_⟩
  · have hfirst := hlasts (.leave .aborted)
    exact Session.getNumber_sampled hfirst.coherent hfirst.live hfirst.fixed hlines hcolumns d
  · exact ((hlasts program).after history).exists_measures hlines hcolumns

end Process

namespace Terminal

variable [Sink ω]

/-- From its setup on, whatever a program and the rest of the process do, a terminal has a size.
Each dimension is resolved from its own sources as they are at the call: what the descriptor of the
stream reports, the variable where it is consulted, and the number that was fixed at setup. So a
dimension is the same at any two moments at which these agree, and the variable counts for nothing
where the descriptor reports a number. A resize through any descriptor of the same tty is seen. -/
theorem dimensions_resolved (host : Host) (allocator : Allocator) (moves : List Move)
    (config : Config) (out : ω) (t : Terminal ω) (board : Switchboard) :
    let f := (Fleet.start host allocator).moveAll moves
    let fd := Sink.descriptor out
    (establish f.host config out).run f.board = (.ok t, board) →
      ∃ fixed : Dimension → Int32,
        (∀ d, ((t.session.getNumber d.capability).run board).1 = .ok (fixed d)) ∧
        ∀ (program : Closure ω α) (history : List Happening),
          let p := (Process.start f board t program).after history
          ∃ size, p.Measures size ∧
            (∀ d, Dimension.Resolves (d.reported p.station.host fd) config.useEnvSize
              (p.station.host.env.get? d.setting) (fixed d) (size d)) ∧
            (∀ (program' : Closure ω α) (history' : List Happening) (size' : Dimension → Int32),
              let p' := (Process.start f board t program').after history'
              p'.Measures size' → ∀ d,
                d.reported p'.station.host fd = d.reported p.station.host fd →
                ((∃ n, d.reported p.station.host fd = some n ∧ n ≠ 0) ∨
                  config.useEnvSize = false ∨
                  p'.station.host.env.get? d.setting = p.station.host.env.get? d.setting) →
                size' d = size d) ∧
            ∀ fd' line rows cols, p.station.host.devices.line fd = .ok line →
              p.station.host.devices.line fd' = .ok line →
              let q := p.next (.move (.resize fd' rows cols))
              ∀ d : Dimension, d.reported q.station.host fd = some (d.cells ⟨rows, cols, 0, 0⟩) := by
  intro f fd ht
  have hf : f.Coherent := (Fleet.coherent_start host allocator).moveAll moves
  obtain ⟨name, entry, -, hnumber, hsize⟩ := Process.exists_sampled (α := α) hf ht
  refine ⟨fun d ↦ d.sampled (Context.load f.host name fd entry), hnumber, fun program history ↦ ?_⟩
  intro p
  obtain ⟨size, hmeasures, hresolves⟩ := hsize program history
  refine ⟨size, hmeasures, hresolves, ?_, ?_⟩
  · intro program' history' size' p' hmeasures' d hreported hsources
    obtain ⟨_, hmeasured, hresolves'⟩ := hsize program' history'
    obtain rfl := hmeasures'.unique hmeasured
    have hnow := hresolves d
    have hthen := hresolves' d
    rw [hreported] at hthen
    rcases hsources with ⟨n, hn, hne⟩ | hnever | hsetting
    · rw [hnow.of_reported hn hne, hthen.of_reported hn hne]
    · rw [hnever] at hnow hthen
      exact hthen.eq_of_not_consulted hnow
    · rw [hsetting] at hthen
      exact hthen.unique hnow
  · intro fd' line rows cols hline hline' q d
    exact Dimension.reported_resize hline hline' rows cols d

theorem dimensions_resolved_pty :
    let host : Host :=
      { env := [("LINES", Bytes.ofText " +7\n"), ("COLUMNS", Bytes.ofText "9")]
        entries := [("x", some {})]
        devices := { opened := [(1, .tty 0), (5, .tty 0)] } }
    let f := (Fleet.start host .ascending).moveAll [.establish "s" (some "x") 1]
    let config : Config := { term := some "x" }
    let out : Rationed := { fd := 1 }
    let t : Terminal Rationed := { session := { context := some 2 }, out, config, term := "x" }
    let board := ((establish f.host config out).run f.board).2
    let program : Closure Rationed Unit := .perform (.write [1]) fun _ ↦ .leave (.returned ())
    let p := (Process.start f board t program).after
      [.step, .move (.resize 5 0 132), .move (.retire "s")]
    (establish f.host config out).run f.board = (.ok t, board) ∧
      ∃ size, p.Measures size ∧ size .lines = 7 ∧ size .columns = 132 := by
  intro host f config out t board program p
  have ht : (establish f.host config out).run f.board = (.ok t, board) := rfl
  obtain ⟨fixed, -, hsize⟩ := dimensions_resolved host .ascending _ config out t board ht
  obtain ⟨size, hmeasures, hresolves, -⟩ := hsize program
    [.step, .move (.resize 5 0 132), .move (.retire "s")]
  have hspells : Text.Spells (Bytes.ofText " +7\n") 7 :=
    ⟨[' '], ['+', '7'], ['\n'], rfl, List.forall_mem_singleton.2 rfl,
      List.forall_mem_singleton.2 rfl,
      @Text.Numeral.plus ['7'] (List.cons_ne_nil _ _) (List.forall_mem_singleton.2 rfl)⟩
  refine ⟨ht, size, hmeasures, ?_, (hresolves .columns).of_reported (k := 132) rfl (by decide)⟩
  exact (hresolves .lines).unique
    (.environment (fun k hk ↦ (Option.some.inj hk).symm) rfl rfl hspells)

/-- A dimension is positive unless it is taken from a variable that spells a number which is not:
the other sources are passed over where they give no such number. -/
theorem dimensions_positive_iff (host : Host) (allocator : Allocator) (moves : List Move)
    (config : Config) (out : ω) (t : Terminal ω) (board : Switchboard) (program : Closure ω α)
    (history : List Happening) :
    let f := (Fleet.start host allocator).moveAll moves
    let p := (Process.start f board t program).after history
    (establish f.host config out).run f.board = (.ok t, board) →
      ∃ size, p.Measures size ∧ ∀ d, 0 < size d ↔
        ¬ ((∀ n, d.reported p.station.host (Sink.descriptor out) = some n → n = 0) ∧
          config.useEnvSize = true ∧
          ∃ b n, p.station.host.env.get? d.setting = some b ∧ Text.Spells b n ∧ n ≤ 0) := by
  intro f p ht
  have hf : f.Coherent := (Fleet.coherent_start host allocator).moveAll moves
  obtain ⟨name, entry, -, -, hsize⟩ := Process.exists_sampled (α := α) hf ht
  obtain ⟨size, hmeasures, hresolves⟩ := hsize program history
  refine ⟨size, hmeasures, fun d ↦ (hresolves d).pos_iff ?_⟩
  cases d with
  | lines => exact Context.lines_load_pos f.host name (Sink.descriptor out) entry
  | columns => exact Context.columns_load_pos f.host name (Sink.descriptor out) entry

theorem dimensions_positive_iff_tty :
    let host : Host :=
      { env := [("LINES", Bytes.ofText "-5"), ("COLUMNS", Bytes.ofText "80x")]
        entries := [("x", some {})]
        devices := { opened := [(1, .tty 0)], tty := fun _ ↦ { window := ⟨3, 0, 0, 0⟩ } } }
    let f := Fleet.start host .ascending
    let config : Config := { term := some "x" }
    let out : Rationed := { fd := 1 }
    let t : Terminal Rationed := { session := { context := some 1 }, out, config, term := "x" }
    let board := ((establish f.host config out).run f.board).2
    let p := Process.start f board t (.leave (.returned ()))
    (establish f.host config out).run f.board = (.ok t, board) ∧
      ∃ size, p.Measures size ∧ 0 < size .lines ∧ 0 < size .columns := by
  intro host f config out t board p
  have ht : (establish f.host config out).run f.board = (.ok t, board) := rfl
  obtain ⟨size, hmeasures, hpositive⟩ :=
    dimensions_positive_iff host .ascending [] config out t board (.leave (.returned ())) [] ht
  refine ⟨ht, size, hmeasures, (hpositive .lines).2 ?_, (hpositive .columns).2 ?_⟩
  · rintro ⟨hzero, -⟩
    exact absurd (hzero 3 rfl) (by decide)
  · rintro ⟨-, -, b, n, hset, hspells, -⟩
    obtain rfl := Option.some.inj hset
    have hunread : Text.decimal? (Text.trim "80x".toList) = none := by decide +kernel
    have hspelled := Text.spells_iff.1 hspells
    rw [Bytes.text?_ofText, Option.bind_some, hunread] at hspelled
    cases hspelled

/-- A variable that spells zero stands in for a tty, where a tty that reports zero and a setup that
reads the same variable pass it over. -/
theorem dimension_zero :
    let host : Host :=
      { env := [("LINES", Bytes.ofText "0")]
        entries := [("x", some { numbers := [("cols", .value 90), ("lines", .value 30)] })] }
    let f := Fleet.start host .ascending
    let config : Config := { term := some "x" }
    let out : OpenFile := { fd := 1 }
    let t : Terminal OpenFile := { session := { context := some 1 }, out, config, term := "x" }
    let board := ((establish f.host config out).run f.board).2
    (establish f.host config out).run f.board = (.ok t, board) ∧
      ((t.screenSize f.host).run board).1 = .ok (0, 90) ∧
      ((t.session.getNumber "lines").run board).1 = .ok 30 := by
  intro host f config out t board
  exact ⟨rfl, by decide +kernel, by decide +kernel⟩

end Terminal

end Terminfo
