import GraphProfile.Decimal.Layout
import GraphProfile.Decimal.Literal

set_option autoImplicit false

/-!
# Values

A cell holds an integer of 64 bits, a float or a text, or nothing at all (`Option Value`). `Value.infer` reads
a literal: an integer if it is one, else a finite float, else the text itself. `Value.display` writes a value the
way labels are compared and texts are counted.
-/
namespace GraphProfile

inductive ValueType where
  | int
  | float
  | string
deriving DecidableEq

namespace ValueType

def name : ValueType → String
  | .int => "int"
  | .float => "float"
  | .string => "string"

def ofName? : String → Option ValueType
  | "int" => some .int
  | "float" => some .float
  | "string" => some .string
  | _ => none

def isNumeric : ValueType → Bool
  | .string => false
  | _ => true

end ValueType

/-- Floats in cells are written without an exponent, and whole ones without a point. -/
def cellLayout : Decimal.Layout where
  tie := .up
  positional := fun _ => true
  pointZero := false
  plusSign := false

inductive Value where
  | int (n : Int64)
  | float (x : Float)
  | text (s : String)
deriving DecidableEq

def toInt64? (n : Int) : Option Int64 :=
  if Int64.minValue.toInt ≤ n ∧ n ≤ Int64.maxValue.toInt then some (Int64.ofInt n) else none

def nearestFloat (n : Int64) : Float := Float.ofInt n.toInt

def readInt64? (cs : List Char) : Option Int64 := (Decimal.integer? cs).bind toInt64?

def readFinite? (cs : List Char) : Option Float := (Decimal.float? cs).filter Float.isFinite

namespace Value

def infer (raw : String) : Value :=
  match readInt64? raw.toList with
  | some n => .int n
  | none =>
    match readFinite? raw.toList with
    | some x => .float x
    | none => .text raw

def int? : Value → Option Int64
  | .int n => some n
  | _ => none

def number? : Value → Option Float
  | .int n => some (nearestFloat n)
  | .float x => some x
  | .text _ => none

def display : Value → String
  | .int n => toString n.toInt
  | .float x => cellLayout.text x
  | .text s => s

/-- Equality as numbers compare: zero has one sign, and what is no number equals nothing. -/
def agrees : Value → Value → Bool
  | .int a, .int b => a == b
  | .float x, .float y => x == y
  | .text s, .text t => s == t
  | _, _ => false

end Value

/-- The least or greatest value of a numeric column, in the column's own type. -/
inductive Bound where
  | int (n : Int64)
  | float (x : Float)
deriving DecidableEq

namespace Bound

def toFloat : Bound → Float
  | .int n => nearestFloat n
  | .float x => x

def text : Bound → String
  | .int n => toString n.toInt
  | .float x => cellLayout.text x

end Bound
end GraphProfile
