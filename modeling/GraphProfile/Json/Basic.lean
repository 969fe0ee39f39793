import GraphProfile.Decimal.Layout

set_option autoImplicit false

/-!
# JSON trees

A tree keeps what a text says and no more is decided here: the fields of an object in order, repeated ones
too, and a number as it is spelled. A string whose bytes or escapes make no Unicode text has no content
(`none`); a reader that skips the string need not care.
-/
namespace GraphProfile

inductive Json where
  | null
  | bool (b : Bool)
  | number (spelling : String)
  | string (content : Option String)
  | array (items : List Json)
  | object (fields : List (Option String × Json))

namespace Json

/-- Floats in documents: without an exponent from `10 ^ -5` up to below `10 ^ 16`, whole ones with a point. -/
def floatLayout : Decimal.Layout where
  tie := .even
  positional := fun lead => decide (-5 ≤ lead ∧ lead ≤ 15)
  pointZero := true
  plusSign := true

def text (s : String) : Json := .string (some s)

def nat (n : Nat) : Json := .number (toString n)

def int (n : Int) : Json := .number (toString n)

/-- There is no spelling for infinities and for what is no number. -/
def float (x : Float) : Json := if x.isFinite then .number (floatLayout.text x) else .null

def ofFields (fields : List (String × Json)) : Json :=
  .object (fields.map fun f => (some f.1, f.2))

def ofOption {α : Type} (f : α → Json) : Option α → Json
  | none => .null
  | some a => f a

end Json
end GraphProfile
