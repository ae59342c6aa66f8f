import Terminfo.Guarded

set_option autoImplicit false

namespace Terminfo

structure Session where
  context : Option Address := none
  diagnostic : Int32 := 0
  deriving DecidableEq, Repr

namespace Session

variable {α : Type}

def isInitialized (s : Session) : Bool := s.context.isSome

/-- Zero is the diagnostic of a fully supported terminal. A session can be initialized once; a
failed attempt leaves it as it was. -/
def init (s : Session) (h : Host) (term : Option String) (fd : Descriptor) :
    Guarded (Except Error Int32 × Session) :=
  if s.isInitialized then pure (.error .alreadyInitialized, s)
  else do
    match ← Guarded.holding (·.setup h term fd) with
    | .error e => pure (.error e, s)
    | .ok address => pure (.ok 0, { context := some address, diagnostic := 0 })

def establish (h : Host) (term : Option String) (fd : Descriptor) :
    Guarded (Except Error Session) := do
  match ← ({} : Session).init h term fd with
  | (.error e, _) => pure (.error e)
  | (.ok _, s) => pure (.ok s)

theorem establish_run_eq_ok_iff {h : Host} {term : Option String} {fd : Descriptor}
    {b b' : Switchboard} {s : Session} : (establish h term fd).run b = (.ok s, b') ↔
      ∃ n, (({} : Session).init h term fd).run b = ((.ok n, s), b') := by
  simp only [establish, Guarded.run_bind]
  generalize (({} : Session).init h term fd).run b = r
  obtain ⟨⟨result, s'⟩, b''⟩ := r
  cases result <;> simp

def retire (s : Session) : Guarded Unit :=
  match s.context with
  | none => pure ()
  | some address => Guarded.holding fun b ↦ ((), b.release address)

def activated (s : Session) (f : Switchboard → Except Error α × Switchboard) :
    Guarded (Except Error α) :=
  match s.context with
  | none => pure (.error .notInitialized)
  | some address => Guarded.holding fun b ↦ f (b.activate address)

def checkName (name : String) : Except Error Unit :=
  if name.isEmpty then .error (.missingArgument .capabilityName)
  else if name.toList.contains '\x00' then
    .error (.invalidArgument (.zeroInCapabilityName name))
  else .ok ()

def checkTemplate (template : Bytes) : Except Error Unit :=
  if template.contains 0 then .error (.invalidArgument .zeroInTemplate) else .ok ()

def checkParameters (parameters : List Int64) : Except Error Unit :=
  if Template.parameterCount < parameters.length then
    .error (.invalidArgument (.tooManyParameters parameters.length))
  else .ok ()

def checkExpansion (template : Bytes) (parameters : List Int64) : Except Error Unit := do
  if template.isEmpty then throw (.missingArgument .template)
  checkTemplate template
  checkParameters parameters

def lookup (s : Session) (name : String) (kind : Kind) : Guarded (Except Error Capability) :=
  match checkName name with
  | .error e => pure (.error e)
  | .ok () => s.activated fun b ↦ (.ok (b.provider.lookup name kind), b)

def getFlag (s : Session) (name : String) : Guarded (Except Error Bool) := do
  pure ((← s.lookup name .boolean).bind (·.asFlag name))

def getNumber (s : Session) (name : String) : Guarded (Except Error Int32) := do
  pure ((← s.lookup name .numeric).bind (·.asNumber name))

def getString (s : Session) (name : String) : Guarded (Except Error Bytes) := do
  pure ((← s.lookup name .string).bind (·.asString name))

def expandParameters (s : Session) (template : Bytes) (parameters : List Int64) :
    Guarded (Except Error Bytes) :=
  match checkExpansion template parameters with
  | .error e => pure (.error e)
  | .ok () => s.activated (·.expand parameters template)

def expandPadding (s : Session) (template : Bytes) (lines : Int32) (caller : Nat := 0) :
    Guarded (Except Error Bytes) :=
  match checkTemplate template with
  | .error e => pure (.error e)
  | .ok () => s.activated fun b ↦
    let (padded, b) := b.pad caller lines template
    (.ok padded, b)

/-- The address of a context is not shown. -/
def describe (s : Session) : String :=
  let context := if s.isInitialized then "Some(Context(<ptr>))" else "None"
  "Session \x7b context: " ++ context ++ ", diagnostic: " ++ toString s.diagnostic.toInt ++ " \x7d"

end Session

end Terminfo
