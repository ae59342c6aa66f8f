import Terminfo.Config
import Terminfo.Session
import Terminfo.Sink.OpenFile
import Terminfo.Text.Blank

set_option autoImplicit false

namespace Terminfo

variable {ω : Type}

structure Terminal (ω : Type) where
  session : Session
  out : ω
  config : Config
  term : String
  /-- Output that an open batch holds back. -/
  pending : Bytes := []
  depth : Nat := 0

namespace Terminal

def establish [Sink ω] (h : Host) (config : Config) (out : ω) :
    Guarded (Except Error (Terminal ω)) :=
  match config.validate with
  | .error e => pure (.error e)
  | .ok () => do
    match ← Session.establish h config.term (Sink.descriptor out) with
    | .error e => pure (.error e)
    | .ok session =>
      pure (.ok { session, out, config, term := config.term.getD ((h.env.text? "TERM").getD "") })

theorem establish_run_eq_ok_iff [Sink ω] {h : Host} {config : Config} {out : ω}
    {b b' : Switchboard} {t : Terminal ω} : (establish h config out).run b = (.ok t, b') ↔
      config.validate = .ok () ∧ ∃ session,
        (Session.establish h config.term (Sink.descriptor out)).run b = (.ok session, b') ∧
          t = { session, out, config
                term := config.term.getD ((h.env.text? "TERM").getD "") } := by
  unfold establish
  cases config.validate with
  | error e => simp
  | ok u =>
    simp only [Guarded.run_bind]
    generalize (Session.establish h config.term (Sink.descriptor out)).run b = r
    obtain ⟨result, b''⟩ := r
    cases result with
    | error e => simp
    | ok session =>
      simp only [Guarded.run_pure, Prod.mk.injEq, Except.ok.injEq, true_and]
      constructor
      · rintro ⟨rfl, rfl⟩
        exact ⟨session, ⟨rfl, rfl⟩, rfl⟩
      · rintro ⟨_, ⟨rfl, rfl⟩, rfl⟩
        exact ⟨rfl, rfl⟩

def establishDefault [Sink ω] (h : Host) (term : Option String) (out : ω) :
    Guarded (Except Error (Terminal ω)) :=
  establish h { term } out

def openTty (h : Host) (config : Config) : Guarded (Except Error (Terminal OpenFile)) :=
  match config.validate with
  | .error e => pure (.error e)
  | .ok () =>
    match h.openPath config.ttyPath with
    | .error cause => pure (.error (.io cause))
    | .ok fd => establish h config { fd }

def controlStringAffecting (t : Terminal ω) (lines : Int32) (name : String)
    (parameters : List Int64) : Guarded (Except Error Bytes) :=
  if name.isEmpty then pure (.error (.missingArgument .capabilityName))
  else do
    match ← t.session.getString name with
    | .error e => pure (.error e)
    | .ok [] => pure (.ok [])
    | .ok template =>
      match ← t.session.expandParameters template parameters with
      | .error e => pure (.error e)
      | .ok expanded => t.session.expandPadding expanded lines

def controlString (t : Terminal ω) (name : String) (parameters : List Int64) :
    Guarded (Except Error Bytes) :=
  t.controlStringAffecting t.config.affectedLines name parameters

/-- The number that the environment gives for a dimension, or else the number that was fixed at
setup. -/
def fallbackDimension (t : Terminal ω) (h : Host) (setting name : String) :
    Guarded (Except Error Int32) :=
  let fromEnv := (h.env.text? setting).bind fun s ↦ Text.decimal? (Text.trim s.toList)
  match if t.config.useEnvSize then fromEnv else none with
  | some n => pure (.ok n)
  | none => t.session.getNumber name

/-- A dimension that the tty reports as zero is one that it does not report. -/
def dimension (t : Terminal ω) (h : Host) (reported : UInt16) (setting name : String) :
    Guarded (Except Error Int32) :=
  if reported = 0 then t.fallbackDimension h setting name
  else pure (.ok (Int32.ofNat reported.toNat))

def screenSize [Sink ω] (t : Terminal ω) (h : Host) : Guarded (Except Error (Int32 × Int32)) := do
  let (rows, cols) := (windowSize h.devices (Sink.descriptor t.out)).toOption.getD (0, 0)
  match ← t.dimension h rows "LINES" "lines" with
  | .error e => pure (.error e)
  | .ok lines =>
    match ← t.dimension h cols "COLUMNS" "cols" with
    | .error e => pure (.error e)
    | .ok columns => pure (.ok (lines, columns))

def screenLines [Sink ω] (t : Terminal ω) (h : Host) : Guarded (Except Error Int32) := do
  pure ((← t.screenSize h).map (·.1))

def screenColumns [Sink ω] (t : Terminal ω) (h : Host) : Guarded (Except Error Int32) := do
  pure ((← t.screenSize h).map (·.2))

def deliver [Sink ω] (t : Terminal ω) : Except IoError Unit × Terminal ω × Delivery :=
  let (result, out, delivery) := Sink.deliver t.out t.pending
  (result, { t with out, pending := [] }, delivery)

/-- Output waits for the end of the outermost batch; outside of batches it goes out at once. -/
def flush [Sink ω] (t : Terminal ω) : Except Error Unit × Terminal ω × Option Delivery :=
  if t.depth ≠ 0 then (.ok (), t, none)
  else
    let (result, t, delivery) := t.deliver
    (result.mapError .io, t, some delivery)

def write [Sink ω] (t : Terminal ω) (b : Bytes) :
    Except Error Unit × Terminal ω × Option Delivery :=
  flush { t with pending := t.pending ++ b }

def describe (t : Terminal ω) : String :=
  "Terminal \x7b term: " ++ Text.quoted t.term ++ " \x7d"

def describeInLines (t : Terminal ω) : String :=
  "Terminal \x7b\n    term: " ++ Text.quoted t.term ++ ",\n\x7d"

end Terminal

end Terminfo
