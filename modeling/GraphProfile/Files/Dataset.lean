import GraphProfile.Delimited.Table
import GraphProfile.Files.Access
import GraphProfile.Run.Report

set_option autoImplicit false

/-!
# Datasets

A dataset is two directories of delimited files, one of vertices and one of edges. Its files are those with the
extension `csv`, in the order of their names, the vertices first.
-/
namespace GraphProfile

/-- The source that a file of these bytes is. -/
def Source.ofContent (options : Delimited.Options) (k : Kind) (file : String × List UInt8) : Source :=
  ⟨file.1, k, (Delimited.table options file.2).mapError (Delimited.Unreadable.error file.1)⟩

structure DataFile where
  path : String
  kind : Kind
deriving DecidableEq

namespace DataFile

variable {m : Type → Type} [Monad m] [FileAccess m]
open FileAccess

def isDataName (name : String) : Bool := (Path.extension? name).any fun e => e.toLower == "csv"

def listKind (kind : Kind) (directory : String) : m (Except Error (List DataFile)) := do
  if (← entryType? directory) ≠ some .directory then
    return .error (.invalidInput s!"'{directory}' is not a directory")
  match ← names directory with
  | .error e => return .error e.error
  | .ok found =>
    let paths := ((found.filter isDataName).mergeSort fun a b => decide (a ≤ b)).map (Path.join directory)
    let files ← paths.filterM fun path => return (← entryType? path) == some .file
    return .ok (files.map fun path => ⟨path, kind⟩)

def discover (vertices edges : String) : m (Except Error (List DataFile)) := do
  match ← listKind .vertex vertices with
  | .error e => return .error e
  | .ok vertexFiles =>
    match ← listKind .edge edges with
    | .error e => return .error e
    | .ok edgeFiles => return .ok (vertexFiles ++ edgeFiles)

/-- A directory in the place of a file fails as a text that cannot be read, and not at opening. -/
def unreadable (source : String) : SystemError → Error
  | .isADirectory => .parse source none SystemError.isADirectory.message
  | e => e.error

def load (options : Delimited.Options) (file : DataFile) : m Source := do
  match ← read file.path with
  | .error e => return ⟨file.path, file.kind, .error (unreadable file.path e)⟩
  | .ok bytes => return .ofContent options file.kind (file.path, bytes.toList)

end DataFile
end GraphProfile
