import Terminfo.Error.System
import Terminfo.Kind
import Terminfo.Text.Quoted

set_option autoImplicit false

namespace Terminfo

inductive IoError
  | system (code : Int32)
  | other (text : String)
  deriving DecidableEq, Repr

namespace IoError

def text : IoError → String
  | .system code =>
    systemErrorText code.toInt ++ " (os error " ++ toString code.toInt ++ ")"
  | .other text => text

def nothingTaken : IoError := .other "failed to write whole buffer"

def invalidPath : IoError := .other "file name contained an unexpected NUL byte"

def invalidText : IoError := .other "stream did not contain valid UTF-8"

end IoError

inductive Argument
  | capabilityName
  | template
  | other (text : String)
  deriving DecidableEq, Repr

def Argument.text : Argument → String
  | .capabilityName => "capability name"
  | .template => "template"
  | .other text => text

/-- Why an argument cannot be handed to the provider, or, in the last case, why a caller's own
closure rejects one. -/
inductive ArgumentFault
  | zeroInCapabilityName (name : String)
  | zeroInTerminalType (name : String)
  | zeroInTemplate
  | tooManyParameters (count : Nat)
  | stringParameters
  | other (text : String)
  deriving DecidableEq, Repr

def ArgumentFault.text : ArgumentFault → String
  | .zeroInCapabilityName name => "capability name " ++ Text.quoted name ++ " contains a NUL byte"
  | .zeroInTerminalType name => "terminal type " ++ Text.quoted name ++ " contains a NUL byte"
  | .zeroInTemplate => "template contains a NUL byte"
  | .tooManyParameters count =>
    "at most 9 parameters are supported, got " ++ toString count
  | .stringParameters => "templates with string parameters are not supported"
  | .other text => text

inductive ConfigFault
  | affectedLines (n : Int32)
  | emptyTerm
  | emptyTtyPath
  | unreadable (path : String) (cause : IoError)
  | malformed
  | other (text : String)
  deriving DecidableEq, Repr

def ConfigFault.text : ConfigFault → String
  | .affectedLines n => "affected_lines must be at least 1, got " ++ toString n.toInt
  | .emptyTerm => "term must not be empty"
  | .emptyTtyPath => "tty_path must not be empty"
  | .unreadable path cause => path ++ ": " ++ cause.text
  | .malformed => "malformed JSON"
  | .other text => text

inductive Error
  | alreadyInitialized
  | notInitialized
  | hardcopy (term : String)
  | typeNotFound (term : String)
  | databaseUnavailable
  | setup (code : Int32)
  | wrongType (name : String) (expected : Kind)
  | absentOrCanceled (name : String)
  | expansionFailed
  | paddingFailed
  | windowSize (cause : IoError)
  | windowSizeUnsupported
  | missingArgument (argument : Argument)
  | invalidArgument (fault : ArgumentFault)
  | io (cause : IoError)
  | config (fault : ConfigFault)
  deriving DecidableEq, Repr

namespace Error

def message : Error → String
  | .alreadyInitialized => "session is already initialized"
  | .notInitialized => "session is not initialized"
  | .hardcopy term => "'" ++ term ++ "': hardcopy terminals are not supported"
  | .typeNotFound term => "terminal type '" ++ term ++ "' could not be found"
  | .databaseUnavailable => "terminfo database could not be found"
  | .setup code => "unexpected setupterm error (code " ++ toString code.toInt ++ ")"
  | .wrongType name expected => "'" ++ name ++ "' is not a " ++ expected.name ++ " capability"
  | .absentOrCanceled name => "'" ++ name ++ "' is a canceled or absent capability"
  | .expansionFailed => "parameter expansion failed"
  | .paddingFailed => "padding expansion failed"
  | .windowSize cause => "Failed to access window size: " ++ cause.text
  | .windowSizeUnsupported => "window size requests are not supported on this platform"
  | .missingArgument argument => "missing required argument: " ++ argument.text
  | .invalidArgument fault => "invalid argument: " ++ fault.text
  | .io cause => "I/O error: " ++ cause.text
  | .config fault => "invalid configuration: " ++ fault.text

def source : Error → Option IoError
  | .windowSize cause | .io cause => some cause
  | _ => none

end Error

end Terminfo
