import Terminfo.Template.Machine
import Terminfo.Template.Usage

set_option autoImplicit false

namespace Terminfo.Template

def parameterCount : Nat := 9

def slots (parameters : List Int64) : List Int64 :=
  (List.range parameterCount).map fun i ↦ parameters[i]?.getD 0

/-- A template that names no parameter finds those that it wants on the stack, the first on top, so
that it can be written in the older style. -/
def start (stored : Variables) (parameters : List Int64) (template : Bytes) : Machine :=
  let usage := Usage.ofTemplate template
  let slots := slots parameters
  { parameters := slots.mapIdx usage.see
    preloaded := !usage.explicit
    stack := if usage.explicit then [] else ((slots.take usage.wanted).map (·.toInt32)).map .number
    stored }

def expand (stored : Variables) (parameters : List Int64) (template : Bytes) : Bytes × Variables :=
  let final := (start stored parameters template).run template
  (Bytes.upToZero final.output.reverse, final.stored)

/-- Some directive traps, which ends the process or spoils its memory. What `expand` gives then means
nothing. -/
def crashes (stored : Variables) (parameters : List Int64) (template : Bytes) : Bool :=
  (start stored parameters template).crashes (slots parameters) template

end Terminfo.Template
