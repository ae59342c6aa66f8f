import Terminfo.Proofs.Session.Parameters
import Terminfo.Proofs.Terminal.ControlString
import Terminfo.Proofs.Terminal.Process

set_option autoImplicit false

namespace Terminfo

variable {ω α : Type} {text : Bytes} {parameters : List Int64} {lines : Int32}

namespace Template

theorem takesString_of_plain (h : Bytes.percent ∉ text) : takesString text = false := by
  have hafter : text.foldl Search.feed .text = .text := Search.after_text h
  rw [takesString, hafter]
  rfl

theorem Machine.feed_literal {m : Machine} (hm : m.mode = .reading .text) {b : UInt8}
    (hb : b ≠ Bytes.percent) : m.feed b = m.write [b] := by
  obtain ⟨parameters, preloaded, incremented, stack, locals, stored, mode, output⟩ := m
  cases hm
  simp [feed, Mode.directive?, Mode.feed, Scan.feed, hb, perform, write]

theorem Machine.run_plain {m : Machine} (hm : m.mode = .reading .text)
    (h : Bytes.percent ∉ text) : m.run text = m.write text := by
  induction text generalizing m with
  | nil => rfl
  | cons b text ih =>
    obtain ⟨hb, htext⟩ := not_or.1 (mt List.mem_cons.2 h)
    calc m.run (b :: text) = (m.write [b]).run text := by
          rw [run, List.foldl_cons, feed_literal hm (Ne.symm hb)]
          rfl
      _ = (m.write [b]).write text := ih hm htext
      _ = m.write (b :: text) := by simp [write]

theorem expand_plain (hzero : 0 ∉ text) (h : Bytes.percent ∉ text) (stored : Variables)
    (parameters : List Int64) : expand stored parameters text = (text, stored) := by
  have hrun := Machine.run_plain (m := start stored parameters text) rfl h
  rw [expand, hrun]
  simp [Machine.write, start, Bytes.upToZero_eq_self hzero]

end Template

namespace Padding

def opening : Bytes := [Bytes.ofLetter '$', Bytes.ofLetter '<']

theorem emit_plain (p : Pacing) (lines : Int32) :
    (¬ opening <:+: text → emit p lines .text text = text) ∧
      (¬ opening <:+: Bytes.ofLetter '$' :: text →
        emit p lines .dollar text = Bytes.ofLetter '$' :: text) := by
  -- A dollar sign covers the byte after it, so that both states of the scan are followed at once.
  induction text with
  | nil => exact ⟨fun _ ↦ rfl, fun _ ↦ rfl⟩
  | cons b text ih =>
    obtain ⟨ihtext, ihdollar⟩ := ih
    constructor
    · intro h
      by_cases hb : b = Bytes.ofLetter '$'
      · subst hb
        rw [emit, if_pos rfl, ihdollar h]
      · rw [emit, if_neg hb, ihtext fun hpart ↦ h (hpart.trans (List.suffix_cons b text).isInfix)]
    · intro h
      have hb : b ≠ Bytes.ofLetter '<' := by
        rintro rfl
        exact h ⟨[], text, rfl⟩
      have htext : ¬ opening <:+: text := fun hpart ↦
        h (hpart.trans ((List.suffix_cons b text).trans (List.suffix_cons _ _)).isInfix)
      simp [emit, hb, ihtext htext]

end Padding

theorem Context.pad_plain (c : Context) (lines : Int32) (h : ¬ Padding.opening <:+: text) :
    c.pad lines text = text := (Padding.emit_plain c.pacing lines).1 h

namespace OwnedSession

variable {o : OwnedSession}

theorem expandParameters_plain (ho : o.context.isSome) (hcount : parameters.length ≤ 9)
    (hne : text ≠ []) (hzero : 0 ∉ text) (h : Bytes.percent ∉ text) :
    o.expandParameters text parameters = (.ok text, o) := by
  obtain ⟨c, hc⟩ := Option.isSome_iff_exists.1 ho
  obtain ⟨context, diagnostic⟩ := o
  cases hc
  have hcarries : c.carriesOut text = true :=
    c.carriesOut_of_texts_eq_nil (Template.texts_eq_nil (Template.Scan.after_literals h).2)
  simp [expandParameters, Session.checkExpansion_ok hne hzero hcount, apply,
    Context.expansion_of_carriesOut (Template.takesString_of_plain h) hcarries,
    Template.expand_plain hzero h]

theorem expandPadding_plain (ho : o.context.isSome) (hzero : 0 ∉ text)
    (h : ¬ Padding.opening <:+: text) (lines : Int32) :
    o.expandPadding text lines = (.ok text, o) := by
  obtain ⟨c, hc⟩ := Option.isSome_iff_exists.1 ho
  obtain ⟨context, diagnostic⟩ := o
  cases hc
  simp [expandPadding, Session.checkTemplate_ok hzero, apply, c.pad_plain lines h]

end OwnedSession

namespace Session

variable {s : Session} {b : Switchboard}

structure Copies (s : Session) (b : Switchboard) (parameters : List Int64) (lines : Int32) :
    Prop where
  parameters : ∀ text, text ≠ [] → 0 ∉ text → Bytes.percent ∉ text →
    ((s.expandParameters text parameters).run b).1 = .ok text
  padding : ∀ text, 0 ∉ text → ¬ Padding.opening <:+: text →
    ((s.expandPadding text lines).run b).1 = .ok text

theorem copies (hb : b.Coherent) (hs : s.Live b) (hi : s.isInitialized)
    (hcount : parameters.length ≤ 9) (lines : Int32) : s.Copies b parameters lines := by
  have ho : (s.owned b).context.isSome := (isSome_owned hs).trans hi
  refine ⟨fun text hne hzero h ↦ ?_, fun text hzero h ↦ ?_⟩
  · rw [(expandParameters_mirrors hb hs text parameters).answer,
      OwnedSession.expandParameters_plain ho hcount hne hzero h]
  · rw [(expandPadding_mirrors hb hs text lines 0).answer,
      OwnedSession.expandPadding_plain ho hzero h lines]

end Session

namespace Terminal

variable {t : Terminal ω} {b : Switchboard} {name : String}

theorem controlString_plain (hb : b.Coherent) (hs : t.session.Live b)
    (hi : t.session.isInitialized) (hcount : parameters.length ≤ 9)
    (hfound : ((t.session.getString name).run b).1 = .ok text) (hpercent : Bytes.percent ∉ text)
    (hopening : ¬ Padding.opening <:+: text) (lines : Int32) :
    ((t.controlStringAffecting lines name parameters).run b).1 = .ok text := by
  have hname : name ≠ "" := ne_empty_of_found hfound (by simp)
  by_cases hne : text = []
  · subst hne
    exact controlString_of_empty hname hfound
  have hzero : 0 ∉ text := Session.zero_notMem_of_getString hi hfound
  -- each of the three holdings begins where the one before has left the switchboard
  have hgot := Session.minds_getString name b hb hs
  have hgotlive := hgot.live hs
  have hexpanded := Session.minds_expandParameters text parameters _ hgot.coherent hgotlive
  have hexpands := (Session.copies hgot.coherent hgotlive hi hcount lines).parameters text hne
    hzero hpercent
  have hpads := (Session.copies hexpanded.coherent (hexpanded.live hgotlive) hi hcount
    lines).padding text hzero hopening
  rw [controlString_of_template hname hne hfound]
  simp only [hexpands, hpads]

variable [Sink ω]

theorem getString_stored {p : Process ω α} {host : Host} {term : Bytes} {fd : Descriptor}
    {entry : Entry} (h : p.Lasts t (Context.load host term fd entry)) (hname : name ≠ "")
    (hzero : '\x00' ∉ name.toList) (hhas : entry.has .string name = true)
    (hstored : entry.string? name = some text) :
    ((t.session.getString name).run p.station.board).1 = .ok text := by
  rw [Session.getString_run h.coherent h.live h.fixed (Session.checkName_ok hname hzero),
    Context.lookup_string hhas]
  change (((entry.string? name).map Capability.string).getD .missing).asString name = .ok text
  rw [hstored]
  rfl

/-- Text passes through every stage unchanged that does not escape from it: what has no percent sign
has no directive, and what has no dollar sign before a less-than sign has no delay. So a capability
that has neither is its own control string, whatever the parameters and the number of affected lines
are, and to perform it is to write it. -/
theorem plain_text_survives (host : Host) (allocator : Allocator) (moves : List Move)
    (parameters : List Int64) (hcount : parameters.length ≤ 9) (lines : Int32) :
    let f := (Fleet.start host allocator).moveAll moves
    (∀ label, (f.session label).isInitialized → (f.session label).Copies f.board parameters lines) ∧
      ∀ (config : Config) (out : ω) (t : Terminal ω) (board : Switchboard),
        (establish f.host config out).run f.board = (.ok t, board) →
          ∃ name entry, Switchboard.Acquires f.host config.term name entry ∧
            ∀ (program : Closure ω α) (history : List Happening),
              let p := (Process.start f board t program).after history
              let s := p.station
              (∀ label, (p.fleet.session label).isInitialized →
                  (p.fleet.session label).Copies s.board parameters lines) ∧
                s.terminal.session.Copies s.board parameters lines ∧
                ∀ cap text, cap ≠ "" → '\x00' ∉ cap.toList → entry.has .string cap = true →
                  entry.string? cap = some text → Bytes.percent ∉ text →
                  ¬ Padding.opening <:+: text →
                    let made := (s.terminal.controlString cap parameters).run s.board
                    ((s.terminal.session.getString cap).run s.board).1 = .ok text ∧
                      ((s.terminal.controlStringAffecting lines cap parameters).run s.board).1 =
                        .ok text ∧
                      made.1 = .ok text ∧
                      s.act (α := α) (.control cap parameters) =
                        { s with board := made.2 }.write text := by
  intro f
  have hf : f.Coherent := (Fleet.coherent_start host allocator).moveAll moves
  refine ⟨fun label hi ↦ Session.copies hf.board (hf.live_session label) hi hcount lines, ?_⟩
  intro config out t board ht
  have hi : t.session.isInitialized := isInitialized_of_establish (congrArg Prod.fst ht)
  obtain ⟨name, entry, hacquires, -, -, hstart⟩ := Process.lasts_start (α := α) hf ht
  refine ⟨name, entry, hacquires, ?_⟩
  intro program history p s
  have hlasts := (hstart program).after history
  have hb : s.board.Coherent := hlasts.coherent
  have hsession : s.terminal.session = t.session := hlasts.nested.session
  have hs : s.terminal.session.Live s.board := hsession ▸ hlasts.live
  have hinitialized : s.terminal.session.isInitialized := hsession ▸ hi
  have hothers : ∀ label, (p.fleet.session label).Live s.board := by
    obtain ⟨w, hw⟩ := hlasts.others
    exact hw.live_session
  refine ⟨fun label hi ↦ Session.copies hb (hothers label) hi hcount lines,
    Session.copies hb hs hinitialized hcount lines, ?_⟩
  intro cap text hcap hzero hhas hstored hpercent hopening made
  have hfound : ((s.terminal.session.getString cap).run s.board).1 = .ok text :=
    hsession ▸ getString_stored hlasts hcap hzero hhas hstored
  have hmade : ∀ lines,
      ((s.terminal.controlStringAffecting lines cap parameters).run s.board).1 = .ok text :=
    controlString_plain hb hs hinitialized hcount hfound hpercent hopening
  refine ⟨hfound, hmade lines, hmade _, ?_⟩
  have hrun : (s.terminal.controlString cap parameters).run s.board = (.ok text, made.2) :=
    Prod.ext (hmade _) rfl
  simp only [Station.act, hrun]

theorem plain_text_survives_dollars :
    let bel : Bytes := [36, 36, 200, 36]
    let entry : Entry := { flags := [("xon", .value true)], strings := [("bel", .value bel)] }
    let host : Host :=
      { entries := [("x", some entry)]
        devices := { opened := [(1, .tty 0)], tty := fun _ ↦ { speed := 9600 } } }
    let f := (Fleet.start host .ascending).moveAll [.establish "s" (some "x") 1]
    let config : Config := { term := some "x" }
    let out : Rationed := { fd := 1 }
    let t : Terminal Rationed := { session := { context := some 2 }, out, config, term := "x" }
    let board := ((establish f.host config out).run f.board).2
    let program : Closure Rationed Unit := .perform (.write [1]) fun _ ↦ .leave (.returned ())
    let s := ((Process.start f board t program).after [.step, .move (.retire "s")]).station
    let made := (s.terminal.controlString "bel" [4, -1]).run s.board
    (f.session "s").isInitialized ∧ (establish f.host config out).run f.board = (.ok t, board) ∧
      (((f.session "s").expandParameters (Bytes.ofText "$<5>") [4, -1]).run f.board).1 =
        .ok (Bytes.ofText "$<5>") ∧
      (((f.session "s").expandPadding (Bytes.ofText "%d$$é$") 7).run f.board).1 =
        .ok (Bytes.ofText "%d$$é$") ∧
      made.1 = .ok bel ∧
      s.act (α := Unit) (.control "bel" [4, -1]) = { s with board := made.2 }.write bel := by
  intro bel entry host f config out t board program s made
  have hi : (f.session "s").isInitialized := rfl
  have ht : (establish f.host config out).run f.board = (.ok t, board) := rfl
  obtain ⟨hsessions, hterminals⟩ := plain_text_survives (ω := Rationed) (α := Unit) host .ascending
    [.establish "s" (some "x") 1] [4, -1] (by decide) 7
  obtain ⟨name, entry', hacquires, hcontrol⟩ := hterminals config out t board ht
  obtain rfl : Bytes.ofText "x" = name := Except.ok.inj hacquires.requested
  obtain rfl : entry = entry' := Option.some.inj hacquires.found
  obtain ⟨-, -, hmade⟩ := hcontrol program [.step, .move (.retire "s")]
  obtain ⟨-, -, hstring, hact⟩ := hmade "bel" bel (by decide) (by decide) rfl rfl (by decide)
    (by decide)
  refine ⟨hi, ht, (hsessions "s" hi).parameters _ ?_ ?_ ?_, (hsessions "s" hi).padding _ ?_ ?_,
    hstring, hact⟩ <;> decide +kernel

end Terminal

end Terminfo
