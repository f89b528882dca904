import MailRoom.Text.CodePoint
import MailRoom.Text.Quoted

/-! What the command line sees of the disk: for each path the bytes of a file, or why there are
none. -/
namespace MailRoom.Command

inductive FileProblem where
  | notFound
  | notDirectory
  | isDirectory
  | noPermission
  | nameTooLong
  /-- A path with a zero character, which is refused before the disk is asked. -/
  | zeroInPath
  deriving DecidableEq, Repr

namespace FileProblem

def number : FileProblem → Nat
  | notFound => 2
  | notDirectory => 20
  | isDirectory => 21
  | noPermission => 13
  | nameTooLong => 36
  | zeroInPath => 22

def reason : FileProblem → String
  | notFound => "No such file or directory"
  | notDirectory => "Not a directory"
  | isDirectory => "Is a directory"
  | noPermission => "Permission denied"
  | nameTooLong => "File name too long"
  | zeroInPath => "embedded null byte"

def message (problem : FileProblem) (path : String) : String :=
  "[Errno " ++ toString problem.number ++ "] " ++ problem.reason ++ ": " ++
    (Text.ofString path).quoted

end FileProblem

/-- The outcome of opening each path. -/
abbrev Disk := String → Except FileProblem ByteArray

namespace Disk

def components (path : String) : List String := path.splitOn "/"

inductive Place where
  /-- A file or directory below the root. -/
  | inside (names : List String)
  /-- A directory above the root. -/
  | outside

abbrev Files := List (List String × ByteArray)

def isDirectory (files : Files) (names : List String) : Bool :=
  names.isEmpty || files.any fun (path, _) => names.isPrefixOf path && path ≠ names

def maxName : Nat := 255

def maxPath : Nat := 4095

/-- Follows the names of a path. An empty name is the directory itself. -/
def follow (files : Files) : Place → List String → Except FileProblem ByteArray
  | .outside, [] => .error .isDirectory
  | .outside, name :: rest =>
    if name = "" ∨ name = "." ∨ name = ".." then follow files .outside rest
    else if name.utf8ByteSize > maxName then .error .nameTooLong
    else .error .notFound
  | .inside names, [] =>
    match files.lookup names with
    | some bytes => .ok bytes
    | none => .error .isDirectory
  | .inside names, name :: rest =>
    if !isDirectory files names then .error .notDirectory
    else if name = "" ∨ name = "." then follow files (.inside names) rest
    else if name = ".." then
      follow files (if names.isEmpty then .outside else .inside names.dropLast) rest
    else if name.utf8ByteSize > maxName then .error .nameTooLong
    else
      let child := names ++ [name]
      if (files.lookup child).isSome || isDirectory files child then
        follow files (.inside child) rest
      else .error .notFound

/-- A directory that holds just these files. -/
def ofFiles (files : List (String × ByteArray)) : Disk := fun path =>
  let tree := files.map fun (name, bytes) => (components name, bytes)
  if path.toList.contains '\x00' then .error .zeroInPath
  else if path.isEmpty then .error .notFound
  else if path.utf8ByteSize > maxPath then .error .nameTooLong
  else follow tree (if path.startsWith "/" then .outside else .inside []) (components path)

end Disk

end MailRoom.Command
