import Terminfo.Padding.Outlet
import Terminfo.Provider
import Terminfo.Template.StringParameter

set_option autoImplicit false

namespace Terminfo

/-- The state that all sessions of a process share. Only one operation at a time holds it. -/
structure Switchboard where
  provider : Provider
  /-- The context that the provider honours, so that it need not be asked. -/
  marker : Option Address := none
  outlet : Padding.Outlet := none

namespace SetupFault

def toError (term : String) : SetupFault → Error
  | .unavailable => .databaseUnavailable
  | .notFound => .typeNotFound term
  | .hardcopy => .hardcopy term

end SetupFault

namespace Switchboard

def start (allocator : Allocator) : Switchboard where
  provider := { allocator }

variable (b : Switchboard)

def activate (address : Address) : Switchboard :=
  if b.marker = some address then b
  else { b with provider := b.provider.select (some address), marker := some address }

def deactivate : Switchboard := { b with provider := b.provider.select none, marker := none }

def discard (address : Address) : Switchboard := { b with provider := b.provider.delete address }

def adopt (address : Address) : Switchboard :=
  { b with provider := b.provider.select (some address), marker := some address }

def shownName (h : Host) (term : Option String) : String :=
  term.getD ((h.env.text? "TERM").getD "")

/-- Sets up a terminal that is not in use by anyone else. No terminal is current before, because
the provider would hand out the current one a second time. What a failed setup leaves behind is
deleted. -/
def setup (h : Host) (term : Option String) (fd : Descriptor) :
    Except Error Address × Switchboard :=
  match term.filter (·.toList.contains '\x00') with
  | some name => (.error (.invalidArgument (.zeroInTerminalType name)), b)
  | none =>
    let (status, provider) := b.deactivate.provider.setup h (term.map Bytes.ofText) fd
    let installed := provider.current
    let quiet := { b with provider }.deactivate
    match status, installed with
    | .error fault, none => (.error (fault.toError (shownName h term)), quiet)
    | .error fault, some leftover =>
      (.error (fault.toError (shownName h term)), quiet.discard leftover)
    -- a setup that succeeds always installs a context
    | .ok (), none => (.error (.setup 1), quiet)
    | .ok (), some address => (.ok address, quiet.adopt address)

def release (address : Address) : Switchboard :=
  (if b.marker = some address then b.deactivate else b).discard address

def expand (parameters : List Int64) (template : Bytes) : Except Error Bytes × Switchboard :=
  if Template.takesString template then (.error (.invalidArgument .stringParameters), b)
  else
    let (expanded, provider) := b.provider.expand parameters template
    (expanded.elim (.error .expansionFailed) .ok, { b with provider })

def bindOutlet (caller : Nat) : Switchboard := { b with outlet := Padding.Outlet.bind caller }

def receive (ch : Int32) : Switchboard := { b with outlet := (b.outlet.receive ch).2 }

def emit (byte : UInt8) : Switchboard := b.receive (Padding.signed byte)

def unbindOutlet : Switchboard := { b with outlet := none }

def pad (caller : Nat) (lines : Int32) (template : Bytes) : Bytes × Switchboard :=
  let filled := (b.provider.emitted lines template).foldl emit (b.bindOutlet caller)
  (filled.outlet.collected, filled.unbindOutlet)

end Switchboard

end Terminfo
