import GraphProfile.Error

set_option autoImplicit false

namespace GraphProfile

inductive SystemError where
  | notFound
  | alreadyExists
  | notADirectory
  | isADirectory
  | nameTooLong
  /-- A path with a character in it that no name can have. -/
  | nulInPath
  | other (text : String)
deriving DecidableEq

namespace SystemError

def message : SystemError → String
  | .notFound => "No such file or directory (os error 2)"
  | .alreadyExists => "File exists (os error 17)"
  | .notADirectory => "Not a directory (os error 20)"
  | .isADirectory => "Is a directory (os error 21)"
  | .nameTooLong => "File name too long (os error 36)"
  | .nulInPath => "file name contained an unexpected NUL byte"
  | .other text => text

def error (e : SystemError) : Error := .io e.message

end SystemError

inductive EntryType where
  | file
  | directory
deriving DecidableEq

class FileAccess (m : Type → Type) where
  entryType? (path : String) : m (Option EntryType)
  /-- The names in a directory, in any order. -/
  names (directory : String) : m (Except SystemError (List String))
  /-- A directory can be opened, and only the reading of it fails. -/
  read (path : String) : m (Except SystemError ByteArray)
  /-- Takes the place of what the file held. -/
  write (path text : String) : m (Except SystemError Unit)
  createDirectory (path : String) : m (Except SystemError Unit)

namespace Path

/-- The names on a path. What stands for the place itself is left out. -/
def names (path : String) : List String := (path.splitOn "/").filter fun name => name ≠ "" ∧ name ≠ "."

def join (directory name : String) : String :=
  if directory.toList.getLast? = some '/' then directory ++ name else directory ++ "/" ++ name

/-- The directories that a path leads through, the innermost first. -/
def parents (path : String) : List String :=
  let root := if path.toList.head? = some '/' then "/" else ""
  let above := (names path).dropLast
  ((List.range above.length).map fun n => root ++ String.intercalate "/" (above.take (n + 1))).reverse

/-- What follows the last point of a name that has something before it. -/
def extension? (name : String) : Option String :=
  let reversed := name.toList.reverse
  match reversed.dropWhile (· ≠ '.') with
  | [] => none
  | [_] => none
  | _ => some (String.ofList (reversed.takeWhile (· ≠ '.')).reverse)

end Path

variable {m : Type → Type} [Monad m] [FileAccess m]
open FileAccess

/-- The innermost directory is tried first, and those above it only where one of them is missing. -/
def createDirectories : List String → m (Except SystemError Unit)
  | [] => return .ok ()
  | path :: above => do
    match ← createDirectory path with
    | .ok _ => return .ok ()
    | .error .notFound =>
      match ← createDirectories above with
      | .error e => return .error e
      | .ok _ => settle path (← createDirectory path)
    | .error e => settle path (.error e)
where
  /-- Whoever made the directory, it is there. -/
  settle (path : String) (made : Except SystemError Unit) : m (Except SystemError Unit) := do
    match made with
    | .ok _ => return .ok ()
    | .error e => return if (← entryType? path) = some .directory then .ok () else .error e

def writeWithParents (path text : String) : m (Except SystemError Unit) := do
  match ← createDirectories (Path.parents path) with
  | .error e => return .error e
  | .ok _ => write path text

end GraphProfile
