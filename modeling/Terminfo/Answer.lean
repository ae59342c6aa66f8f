import Terminfo.Capability
import Terminfo.Config

set_option autoImplicit false

namespace Terminfo

inductive Value
  | unit
  | truth (b : Bool)
  | integer (n : Int32)
  | dimensions (lines columns : Int32)
  | bytes (b : Bytes)
  | text (s : String)
  | capability (c : Capability)
  | config (c : Config)
  deriving DecidableEq, Repr

abbrev Answer := Except Error Value

end Terminfo
