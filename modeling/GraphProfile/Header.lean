import GraphProfile.Value

set_option autoImplicit false

/-!
# Column headers

A header reads `name:tag(group)`, where tag and group may be missing. The name ends at the first colon. The tag
holds no parenthesis; the group reaches to the closing parenthesis that ends the header and is on one line.
A header of any other shape is a name as a whole.

The tag says what the column is: identity, endpoint or label (then the column is structural, as is one without
a name before its colon), or the type of its values.
-/
namespace GraphProfile

structure Header where
  raw : String
  name : String
  tag : Option String
  group : Option String
deriving DecidableEq

namespace Header

/-- The tag and group written after the first colon, if they have the right shape. -/
def split? (rest : List Char) : Option (List Char × Option (List Char)) :=
  let tag := rest.takeWhile fun c => c ≠ '(' ∧ c ≠ ')'
  match rest.dropWhile fun c => c ≠ '(' ∧ c ≠ ')' with
  | [] => some (tag, none)
  | ')' :: _ => none
  | _ :: inner =>
    if inner.getLast? = some ')' ∧ '\n' ∉ inner.dropLast then some (tag, some inner.dropLast) else none

def parse (raw : String) : Header :=
  match raw.toList.dropWhile (· ≠ ':') with
  | [] => { raw, name := raw, tag := none, group := none }
  | _ :: rest =>
    match split? rest with
    | none => { raw, name := raw, tag := none, group := none }
    | some (tag, group) =>
      { raw
        name := String.ofList (raw.toList.takeWhile (· ≠ ':'))
        tag := if tag = [] then none else some (String.ofList tag)
        group := group.map String.ofList }

def structuralTags : List String := ["id", "start_id", "end_id", "label", "type"]

/-- Tags are compared without regard to the case of ASCII letters. -/
def foldedTag (h : Header) : Option String := h.tag.map String.toLower

def isStructural (h : Header) : Bool :=
  h.raw.toList.head? == some ':' || h.foldedTag.any structuralTags.contains

/-- Tags that name no number declare texts. -/
def declared (h : Header) : Option ValueType :=
  h.foldedTag.map fun
    | "int" | "long" | "short" | "byte" => .int
    | "float" | "double" => .float
    | _ => .string

end Header
end GraphProfile
