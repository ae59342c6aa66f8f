import Terminfo.Proofs.Terminal.ScreenSize

set_option autoImplicit false

namespace Terminfo

variable {ω α : Type}

structure Host.AlikeBesideSize (h h' : Host) : Prop where
  devices : h'.devices = h.devices
  entries : h'.entries = h.entries
  files : h'.files = h.files
  env : ∀ name, (∀ d : Dimension, name ≠ d.setting) → h'.env.get? name = h.env.get? name

section Setup

variable {h h' : Host} {term : Option String} {name : Bytes} {entry : Entry}

theorem Switchboard.Acquires.of_alike (ha : Acquires h term name entry)
    (halike : h.AlikeBesideSize h') : Acquires h' term name entry where
  checked := ha.checked
  requested := by
    have hterm : h'.env.get? "TERM" = h.env.get? "TERM" :=
      halike.env "TERM" fun d ↦ by cases d <;> decide
    have hrequested := ha.requested
    simp only [Provider.requested] at hrequested ⊢
    rw [hterm, hrequested]
  found := by
    have hentry : h'.entry? = h.entry? := by
      funext n
      simp only [Host.entry?, halike.entries]
    simp only [Provider.find?, hentry]
    exact ha.found
  specific := ha.specific
  softcopy := ha.softcopy

/-- A setup reads each of the variables for one dimension only, and only if it is positive. -/
theorem Context.sampled_load_of_alike (halike : h.AlikeBesideSize h') (fd : Descriptor)
    {d : Dimension} (hsetting : (h'.env.get? d.setting).bind Text.positive? =
      (h.env.get? d.setting).bind Text.positive?) :
    d.sampled (load h' name fd entry) = d.sampled (load h name fd entry) := by
  cases d with
  | lines | columns =>
    simp only [Dimension.sampled, Dimension.setting, load, redirected, dimension] at hsetting ⊢
    rw [hsetting, halike.devices]

end Setup

namespace Terminal

variable [Sink ω] {f : Fleet} {config : Config}

theorem exists_establish (hf : f.Coherent) (hvalid : config.validate = .ok ()) {name : Bytes}
    {entry : Entry} (ha : Switchboard.Acquires f.host config.term name entry) (out : ω) :
    ∃ t board, (establish f.host config out).run f.board = (.ok t, board) := by
  have hi := (Session.init_starts hf.board Fleet.live_empty f.host config.term
    (Sink.descriptor out)).answer
  have hok : ((({} : Session).owned f.board).init f.host config.term (Sink.descriptor out)).1 =
      .ok 0 := by
    simp [Session.owned, OwnedSession.init, ha.acquired]
  have hsession := Session.establish_run_eq_ok_iff.2 ⟨0, Prod.ext (Prod.ext (hi.trans hok) rfl) rfl⟩
  exact ⟨_, _, establish_run_eq_ok_iff.2 ⟨hvalid, _, hsession, rfl⟩⟩

/-- Where the environment is not consulted, the two variables count for nothing once a terminal is
set up, and each of them counts at setup for its own dimension at most: the one that a setup reads,
where it is a positive number, for a dimension that the stream's descriptor does not report. Apart
from that two runs with the same resizes have the same sizes, whatever else happens in them. -/
theorem unread_environment (host host' : Host) (allocator allocator' : Allocator)
    (moves moves' : List Move) (config : Config) (out : ω) (t : Terminal ω)
    (board : Switchboard) :
    let f := (Fleet.start host allocator).moveAll moves
    let f' := (Fleet.start host' allocator').moveAll moves'
    f.host.AlikeBesideSize f'.host → config.useEnvSize = false →
      (establish f.host config out).run f.board = (.ok t, board) →
      ∃ t' board', (establish f'.host config out).run f'.board = (.ok t', board') ∧
        ∀ (program program' : Closure ω α) (history history' : List Happening),
          let first := Process.start f board t program
          let second := Process.start f' board' t' program'
          first.resizes history = second.resizes history' →
          ∃ size size', (first.after history).Measures size ∧
            (second.after history').Measures size' ∧ ∀ d : Dimension,
              ((∃ n, d.reported (first.after history).station.host (Sink.descriptor out) = some n ∧
                  n ≠ 0) ∨
                (f'.host.env.get? d.setting).bind Text.positive? =
                  (f.host.env.get? d.setting).bind Text.positive?) →
              size' d = size d := by
  intro f f' halike hunread ht
  have hf : f.Coherent := (Fleet.coherent_start host allocator).moveAll moves
  have hf' : f'.Coherent := (Fleet.coherent_start host' allocator').moveAll moves'
  obtain ⟨name, entry, hacquires, -, hsize⟩ := Process.exists_sampled (α := α) hf ht
  obtain ⟨t', board', ht'⟩ :=
    exists_establish hf' (establish_run_eq_ok_iff.1 ht).1 (hacquires.of_alike halike) out
  refine ⟨t', board', ht', fun program program' history history' ↦ ?_⟩
  intro first second hresizes
  obtain ⟨name', entry', hacquires', -, hsize'⟩ := Process.exists_sampled (α := α) hf' ht'
  -- both setups find the same entry
  have hsame := hacquires.of_alike halike
  obtain rfl : name = name' := Except.ok.inj (hsame.requested.symm.trans hacquires'.requested)
  obtain rfl : entry = entry' := Option.some.inj (hsame.found.symm.trans hacquires'.found)
  obtain ⟨size, hmeasures, hresolves⟩ := hsize program history
  obtain ⟨size', hmeasures', hresolves'⟩ := hsize' program' history'
  refine ⟨size, size', hmeasures, hmeasures', fun d hd ↦ ?_⟩
  have hdevices : (second.after history').station.host.devices =
      (first.after history).station.host.devices := by
    rw [Process.devices_after, Process.devices_after, hresizes]
    exact congrArg (List.foldl Devices.resized · (second.resizes history')) halike.devices
  have hreported : d.reported (second.after history').station.host (Sink.descriptor out) =
      d.reported (first.after history).station.host (Sink.descriptor out) := by
    simp only [Dimension.reported, hdevices]
  have hfirst := hresolves d
  have hsecond := hresolves' d
  rw [hunread] at hfirst hsecond
  rw [hreported] at hsecond
  rcases hd with ⟨n, hn, hne⟩ | hsetting
  · rw [hfirst.of_reported hn hne, hsecond.of_reported hn hne]
  · rw [Context.sampled_load_of_alike halike _ hsetting] at hsecond
    exact hsecond.eq_of_not_consulted hfirst

theorem unread_environment_reported :
    let pty : Devices := { opened := [(1, .tty 0), (5, .tty 0)] }
    let host : Host :=
      { env := [("COLUMNS", Bytes.ofText "0x50")], entries := [("x", some {})], devices := pty }
    let host' : Host :=
      { env := [("LINES", Bytes.ofText "11"), ("COLUMNS", Bytes.ofText "80")]
        entries := [("x", some {})], devices := pty }
    let config : Config := { term := some "x", useEnvSize := false }
    let out : Rationed := { fd := 1 }
    let t : Terminal Rationed := { session := { context := some 1 }, out, config, term := "x" }
    let board := fun h : Host ↦ ((establish h config out).run (.start .ascending)).2
    let program : Closure Rationed Unit := .perform (.resize 5 40 0) fun _ ↦ .leave (.returned ())
    let p := (Process.start (.start host .ascending) (board host) t program).after [.step]
    let p' := (Process.start (.start host' .ascending) (board host') t
      (.leave (.returned ()))).after
        [.move (.setEnv "COLUMNS" (some (Bytes.ofText "7"))), .move (.resize 5 40 0)]
    ∃ size, p.Measures size ∧ p'.Measures size := by
  intro pty host host' config out t board program p p'
  have halike : host.AlikeBesideSize host' := by
    refine ⟨rfl, rfl, rfl, fun name hname ↦ ?_⟩
    have hlines : (name == "LINES") = false := beq_eq_false_iff_ne.2 (hname .lines)
    have hcolumns : (name == "COLUMNS") = false := beq_eq_false_iff_ne.2 (hname .columns)
    simp [host, host', Environment.get?, List.lookup_cons, hlines, hcolumns]
  have ht : (establish host config out).run (.start .ascending) = (.ok t, board host) := rfl
  obtain ⟨t', board', ht', hsizes⟩ := unread_environment host host' .ascending .ascending [] []
    config out t (board host) halike rfl ht
  obtain ⟨rfl, rfl⟩ : t = t' ∧ board host' = board' := by
    have hboth : (establish host' config out).run (.start .ascending) = (.ok t, board host') := rfl
    simpa using hboth.symm.trans ht'
  obtain ⟨size, size', hmeasures, hmeasures', hagree⟩ := hsizes program (.leave (.returned ()))
    [.step] [.move (.setEnv "COLUMNS" (some (Bytes.ofText "7"))), .move (.resize 5 40 0)] rfl
  have hsame : size' = size := by
    funext d
    cases d with
    | lines => exact hagree .lines (.inl ⟨40, rfl, by decide⟩)
    | columns => exact hagree .columns (.inr (by decide +kernel))
  exact ⟨size, hmeasures, hsame ▸ hmeasures'⟩

/-- A setup that reads a variable differently leads to another size, although the environment is not
consulted. -/
theorem screenSize_of_unread_lines :
    let host : Host := { entries := [("x", some {})] }
    let host' := host.setEnv "LINES" (some (Bytes.ofText "11"))
    let config : Config := { term := some "x", useEnvSize := false }
    let out : OpenFile := { fd := 1 }
    let t : Terminal OpenFile := { session := { context := some 1 }, out, config, term := "x" }
    let board := fun h : Host ↦ ((establish h config out).run (.start .ascending)).2
    (establish host config out).run (.start .ascending) = (.ok t, board host) ∧
      (establish host' config out).run (.start .ascending) = (.ok t, board host') ∧
      ((t.screenSize host).run (board host)).1 = .ok (24, 80) ∧
      ((t.screenSize host').run (board host')).1 = .ok (11, 80) := by
  intro host host' config out t board
  exact ⟨rfl, rfl, by decide +kernel, by decide +kernel⟩

end Terminal

end Terminfo
