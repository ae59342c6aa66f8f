import Terminfo.Bytes
import Terminfo.Entry
import Terminfo.FileTree

set_option autoImplicit false

namespace Terminfo

abbrev Environment := List (String × Bytes)

namespace Environment

def get? (env : Environment) (name : String) : Option Bytes := env.lookup name

/-- A variable whose bytes are no text reads as if it were unset. -/
def text? (env : Environment) (name : String) : Option String := (get? env name).bind Bytes.text?

def set (env : Environment) (name : String) (value : Option Bytes) : Environment :=
  let others := env.filter (·.1 ≠ name)
  match value with
  | none => others
  | some b => (name, b) :: others

end Environment

/-- Of a template that takes a parameter for a text, editions of the provider differ in what they
do: one carries it out, and the other one does so only for the capabilities that are known to have
texts. -/
inductive Edition
  | trusting
  | checking
  deriving DecidableEq, Repr

structure Host where
  env : Environment := []
  edition : Edition := .trusting
  /-- There is a terminfo database in one of the places where it is looked for. -/
  hasDatabase : Bool := true
  /-- The files of the database, `none` being one that holds no valid entry. -/
  entries : List (String × Option Entry) := []
  entries_eq_nil : hasDatabase = false → entries = [] := by simp
  devices : Devices := {}
  files : FileTree := []

namespace Host

def entry? (h : Host) (name : String) : Option Entry := (h.entries.lookup name).join

def setEnv (h : Host) (name : String) (value : Option Bytes) : Host :=
  { h with env := h.env.set name value }

def resize (h : Host) (fd : Descriptor) (rows cols : UInt16) : Except Error Unit × Host :=
  let (result, devices) := setWindowSize h.devices fd rows cols
  (result, { h with devices })

def openPath (h : Host) (path : String) : Except IoError Descriptor := do
  (← h.files.resolve path).descriptor

end Host

end Terminfo
