import GraphProfile.Delimited.Rows
import GraphProfile.Header
import GraphProfile.Table.Basic

set_option autoImplicit false

/-!
# Tables of delimited text

The first row names the columns, or there are no names and columns are numbered. An empty cell has no value.
A column has the narrowest type that all its other cells can be read as: integers, else finite floats, else their
texts. Structural columns and columns declared as texts keep their texts whatever they look like.
-/
namespace GraphProfile.Delimited

structure Options where
  delimiter : UInt8
  hasHeader : Bool

def Options.standard : Options := ⟨124, true⟩

def present (cells : List String) : List String := cells.filter fun s => !s.isEmpty

def cellWith (read : String → Option Value) (s : String) : Option Value := if s.isEmpty then none else read s

def readInt? (s : String) : Option Value := (readInt64? s.toList).map .int

def readFloat? (s : String) : Option Value := (readFinite? s.toList).map .float

def readText? (s : String) : Option Value := some (.text s)

/-- The first reading that is open to all cells. -/
def reading (cells : List String) : String → Option Value :=
  if (present cells).all fun s => (readInt? s).isSome then readInt?
  else if (present cells).all fun s => (readFloat? s).isSome then readFloat?
  else readText?

def column (name : String) (cells : List String) : Column :=
  let header := Header.parse name
  let verbatim := header.isStructural || header.declared == some .string
  { name
    declared := if header.isStructural then none else header.declared
    values := cells.map (cellWith (if verbatim then readText? else reading cells)) }

def numberedNames (n : Nat) : List String := (List.range n).map fun i => s!"column_{i}"

def heading (hasHeader : Bool) (rows : List (List String)) : List String × List (List String) :=
  if hasHeader then (rows.headD [], rows.tail) else (numberedNames (rows.headD []).length, rows)

def transpose (width : Nat) (rows : List (List String)) : List (List String) :=
  rows.foldr (List.zipWith List.cons) (List.replicate width [])

def tableOfTexts (hasHeader : Bool) (rows : List (List String)) : Except Table.Misfit Table :=
  let (names, body) := heading hasHeader rows
  Table.ofColumns (List.zipWith column names (transpose names.length body))

inductive Unreadable where
  | fault (f : Fault)
  | misfit (m : Table.Misfit)
deriving DecidableEq

/-- A fault has a line; columns that do not fit belong to the table as a whole. -/
def Unreadable.error (source : String) : Unreadable → Error
  | .fault f => .parse source (some f.start.line) f.message
  | .misfit m => .parse source none m.error.message

def table (options : Options) (bytes : List UInt8) : Except Unreadable Table :=
  match texts (rows options.delimiter bytes) with
  | .error f => .error (.fault f)
  | .ok rows => (tableOfTexts options.hasHeader rows).mapError .misfit

end GraphProfile.Delimited
