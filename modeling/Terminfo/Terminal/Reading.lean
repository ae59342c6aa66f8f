import Terminfo.Session.Query
import Terminfo.Terminal

set_option autoImplicit false

namespace Terminfo

variable {ω : Type}

inductive Reading (ω : Type)
  | controlString (name : String) (parameters : List Int64)
  | controlStringAffecting (lines : Int32) (name : String) (parameters : List Int64)
  | screenSize
  | screenLines
  | screenColumns
  | term
  | config
  | describe (inLines : Bool)
  | ask (query : Query)
  | inspect (view : ω → Bytes)

def Reading.isFallible : Reading ω → Bool
  | .controlString .. | .controlStringAffecting .. | .screenSize | .screenLines
  | .screenColumns => true
  | .term | .config | .describe _ | .ask _ | .inspect _ => false

def Terminal.read [Sink ω] (t : Terminal ω) (h : Host) : Reading ω → Guarded Answer
  | .controlString name parameters => do
    pure ((← t.controlString name parameters).map .bytes)
  | .controlStringAffecting lines name parameters => do
    pure ((← t.controlStringAffecting lines name parameters).map .bytes)
  | .screenSize => do
    pure ((← t.screenSize h).map fun (lines, columns) ↦ .dimensions lines columns)
  | .screenLines => do pure ((← t.screenLines h).map .integer)
  | .screenColumns => do pure ((← t.screenColumns h).map .integer)
  | .term => pure (.ok (.text t.term))
  | .config => pure (.ok (.config t.config))
  | .describe inLines => pure (.ok (.text (if inLines then t.describeInLines else t.describe)))
  | .ask query => t.session.ask query
  | .inspect view => pure (.ok (.bytes (view t.out)))

end Terminfo
