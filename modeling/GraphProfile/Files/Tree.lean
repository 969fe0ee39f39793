import GraphProfile.Files.Access

set_option autoImplicit false

/-!
# Trees of files

A tree of files that is a value: whatever is done through `FileAccess` can be done to it too. A place is the list
of names that lead to it from the top, the last name first; the top itself is always there. A path that does not
begin with a slash starts at one place of the tree, the working directory.
-/
namespace GraphProfile

inductive Entry where
  | file (content : ByteArray)
  | directory
  /-- Takes whatever is written to it, and has nothing to give back. -/
  | sink

def Entry.type? : Entry → Option EntryType
  | .file _ => some .file
  | .directory => some .directory
  | .sink => none

abbrev Place := List String

/-- A later entry for a place hides an earlier one. -/
structure FileTree where
  entries : List (Place × Entry)
  workingDirectory : Place

namespace FileTree

def longestName : Nat := 255

def longestPath : Nat := 4095

/-- Nothing but an empty working directory, and the sink that every system has. -/
def empty : FileTree where
  entries := [(["work"], .directory), (["dev"], .directory), (["null", "dev"], .sink)]
  workingDirectory := ["work"]

def get? (t : FileTree) (place : Place) : Option Entry :=
  if place = [] then some .directory else t.entries.lookup place

def put (t : FileTree) (place : Place) (entry : Entry) : FileTree :=
  { t with entries := (place, entry) :: t.entries }

/-- One name further. There is a way on only from a directory, and the top is above itself. -/
def walk (t : FileTree) (here : Place) (name : String) : Except SystemError Place :=
  match t.get? here with
  | none => .error .notFound
  | some .directory =>
    if name = "" ∨ name = "." then .ok here
    else if name = ".." then .ok here.tail
    else if longestName < name.utf8ByteSize then .error .nameTooLong
    else .ok (name :: here)
  | some _ => .error .notADirectory

/-- Where a path leads, whether or not anything is there. -/
def locate (t : FileTree) (path : String) : Except SystemError Place :=
  if path.toList.contains '\x00' then .error .nulInPath
  else if path = "" then .error .notFound
  else if longestPath < path.utf8ByteSize then .error .nameTooLong
  else (path.splitOn "/").foldlM t.walk (if path.toList.head? = some '/' then [] else t.workingDirectory)

def find (t : FileTree) (path : String) : Except SystemError (Place × Entry) := do
  let place ← t.locate path
  match t.get? place with
  | none => .error .notFound
  | some entry => .ok (place, entry)

def childName? (place : Place) : Place → Option String
  | name :: above => if above = place then some name else none
  | [] => none

def names (t : FileTree) (path : String) : Except SystemError (List String) := do
  match ← t.find path with
  | (place, .directory) => .ok (t.entries.filterMap fun entry => childName? place entry.1).eraseDups
  | _ => .error .notADirectory

def read (t : FileTree) (path : String) : Except SystemError ByteArray := do
  match ← t.find path with
  | (_, .file content) => .ok content
  | (_, .directory) => .error .isADirectory
  | (_, .sink) => .ok .empty

/-- A path that ends with a slash names a directory, even one that is not there. -/
def write (t : FileTree) (path : String) (content : ByteArray) : Except SystemError FileTree := do
  let place ← t.locate (String.ofList (path.toList.reverse.dropWhile (· = '/')).reverse)
  if path.toList.getLast? = some '/' then .error .isADirectory
  else
    match t.get? place with
    | some .directory => .error .isADirectory
    | some .sink => .ok t
    | _ => .ok (t.put place (.file content))

def createDirectory (t : FileTree) (path : String) : Except SystemError FileTree := do
  let place ← t.locate path
  match t.get? place with
  | some _ => .error .alreadyExists
  | none => .ok (t.put place .directory)

/-- A change that cannot be made leaves the tree as it is. -/
def change (f : FileTree → Except SystemError FileTree) : StateM FileTree (Except SystemError Unit) := fun t =>
  match f t with
  | .ok changed => (.ok (), changed)
  | .error e => (.error e, t)

instance : FileAccess (StateM FileTree) where
  entryType? path := return ((← get).find path).toOption.bind fun found => found.2.type?
  names directory := return (← get).names directory
  read path := return (← get).read path
  write path text := change (·.write path text.toUTF8)
  createDirectory path := change (·.createDirectory path)

end FileTree
end GraphProfile
