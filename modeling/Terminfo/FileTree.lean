import Terminfo.Device

set_option autoImplicit false

namespace Terminfo

inductive PathTarget
  | directory
  | device (fd : Descriptor)
  | refused (cause : IoError)
  deriving DecidableEq, Repr

namespace PathTarget

def descriptor : PathTarget → Except IoError Descriptor
  | .directory => .error (.system SystemError.isDirectory)
  | .device fd => .ok fd
  | .refused cause => .error cause

end PathTarget

abbrev FileTree := List (String × PathTarget)

namespace FileTree

def longestName : Nat := 255

def longestPath : Nat := 4095

variable (tree : FileTree)

/-- Follows names from a directory. The first one that does not lead on decides, even if a later one
is at fault too. -/
def walk (directory : String) : List String → Except IoError PathTarget
  | [] => .ok .directory
  | name :: names =>
    if name = "" ∨ name = "." then walk directory names
    else if longestName < name.utf8ByteSize then .error (.system SystemError.nameTooLong)
    else
      match tree.lookup (directory ++ name) with
      | none => .error (.system SystemError.noEntry)
      | some .directory => walk (directory ++ name ++ "/") names
      | some target =>
        if names.isEmpty then .ok target else .error (.system SystemError.notDirectory)

def resolve (path : String) : Except IoError PathTarget :=
  if path.toList.contains '\x00' then .error .invalidPath
  else if path.isEmpty then .error (.system SystemError.noEntry)
  else if longestPath < path.utf8ByteSize then .error (.system SystemError.nameTooLong)
  else tree.walk (if path.startsWith "/" then "/" else "") (path.splitOn "/")

end FileTree

end Terminfo
