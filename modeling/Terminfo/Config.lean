import Terminfo.Host

set_option autoImplicit false

namespace Terminfo

structure Config where
  /-- The terminal type; without one it is taken from the environment at setup. -/
  term : Option String := none
  ttyPath : String := "/dev/tty"
  affectedLines : Int32 := 1
  /-- Whether the environment is consulted where the tty reports no size. -/
  useEnvSize : Bool := true
  deriving DecidableEq, Repr

namespace Config

def ofHost (h : Host) : Config where
  term := (h.env.text? "TERM").filter fun t ↦ !t.isEmpty

def fault? (c : Config) : Option ConfigFault :=
  if c.affectedLines < 1 then some (.affectedLines c.affectedLines)
  else if c.term = some "" then some .emptyTerm
  else if c.ttyPath.isEmpty then some .emptyTtyPath
  else none

def validate (c : Config) : Except Error Unit :=
  match c.fault? with
  | none => .ok ()
  | some fault => .error (.config fault)

end Config

end Terminfo
