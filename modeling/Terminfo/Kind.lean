set_option autoImplicit false

namespace Terminfo

inductive Kind
  | boolean
  | numeric
  | string
  deriving DecidableEq, Repr

def Kind.name : Kind → String
  | .boolean => "boolean"
  | .numeric => "numeric"
  | .string => "string"

end Terminfo
