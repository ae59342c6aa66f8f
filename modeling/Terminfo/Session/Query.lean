import Terminfo.Answer
import Terminfo.Session

set_option autoImplicit false

namespace Terminfo

inductive Query
  | isInitialized
  | diagnostic
  | lookup (name : String) (kind : Kind)
  | flag (name : String)
  | number (name : String)
  | string (name : String)
  | expandParameters (template : Bytes) (parameters : List Int64)
  | expandPadding (template : Bytes) (lines : Int32)
  | describe
  deriving DecidableEq, Repr

/-- Each query takes hold of the switchboard at most once. -/
def Session.ask (s : Session) : Query → Guarded Answer
  | .isInitialized => pure (.ok (.truth s.isInitialized))
  | .diagnostic => pure (.ok (.integer s.diagnostic))
  | .lookup name kind => do pure ((← s.lookup name kind).map .capability)
  | .flag name => do pure ((← s.getFlag name).map .truth)
  | .number name => do pure ((← s.getNumber name).map .integer)
  | .string name => do pure ((← s.getString name).map .bytes)
  | .expandParameters template parameters => do
    pure ((← s.expandParameters template parameters).map .bytes)
  | .expandPadding template lines => do pure ((← s.expandPadding template lines).map .bytes)
  | .describe => pure (.ok (.text s.describe))

end Terminfo
