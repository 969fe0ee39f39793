import GraphProfile.Table.Basic

set_option autoImplicit false

/-!
# The type of a column

A column has one type. A declared string column is one; otherwise one text among the values makes all of them
texts, and one float makes all numbers floats. Without any value the declaration stands, or string.

A float column keeps its finite numbers only: what lies outside the number line counts as missing.
-/
namespace GraphProfile

inductive Typed where
  | int (ns : List Int64)
  | float (xs : List Float)
  | text (ss : List String)
deriving DecidableEq

def Typed.length : Typed → Nat
  | .int ns => ns.length
  | .float xs => xs.length
  | .text ss => ss.length

structure Classified where
  type : ValueType
  values : Typed
  nullCount : Nat
deriving DecidableEq

namespace Classified

/-- The widest type needed for what has been seen so far and one value more. -/
def widen : Option ValueType → Value → Option ValueType
  | _, .text _ => some .string
  | some .string, _ => some .string
  | _, .float _ => some .float
  | some .float, .int _ => some .float
  | _, .int _ => some .int

def widest (cells : List (Option Value)) : Option ValueType :=
  cells.foldl (fun seen cell => cell.elim seen (widen seen)) none

def columnType (declared : Option ValueType) (cells : List (Option Value)) : ValueType :=
  match declared, widest cells with
  | some .string, _ => .string
  | declared, none => declared.getD .string
  | some .float, some .int => .float
  | _, some type => type

def typed (cells : List (Option Value)) : ValueType → Typed
  | .int => .int (cells.filterMap fun cell => cell.bind Value.int?)
  | .float => .float ((cells.filterMap fun cell => cell.bind Value.number?).filter Float.isFinite)
  | .string => .text (cells.filterMap fun cell => cell.map Value.display)

end Classified

def classify (declared : Option ValueType) (cells : List (Option Value)) : Classified :=
  let type := Classified.columnType declared cells
  let values := Classified.typed cells type
  { type, values, nullCount := cells.length - values.length }

end GraphProfile
