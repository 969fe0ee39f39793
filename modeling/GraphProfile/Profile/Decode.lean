import GraphProfile.Json.Parser
import GraphProfile.Profile.Basic

set_option autoImplicit false

/-!
# Reading profile documents

A document is read more freely than it is written. An object may hold its fields in any order, leave out those
with a default, and hold fields of other names, whose content does not matter; no known field may occur twice.
An array stands for the values of the fields in their order. In a map the last of equal keys counts.

Counts are whole numbers below `2 ^ 64`. Floats must be finite. A bound is an integer where it is spelled as one
and fits into 64 bits; minus zero is a float.
-/
namespace GraphProfile
open Std

namespace Json

def isKnown (names : List String) (key : Option String) : Bool := key.any names.contains

/-- What stands under each of the names, in the order of the names. -/
def slots? (names : List String) : Json → Option (List (Option Json))
  | .object fields =>
    let keys := fields.map Prod.fst
    if keys.all Option.isSome ∧ (keys.filter (isKnown names)).Nodup then
      some (names.map fun name => (fields.find? fun f => f.1 == some name).map Prod.snd)
    else none
  | .array items =>
    if items.length ≤ names.length then
      some (items.map some ++ List.replicate (names.length - items.length) none)
    else none
  | _ => none

def required {α : Type} (read : Json → Option α) : Option Json → Option α
  | some j => read j
  | none => none

def orElse {α : Type} (read : Json → Option α) (default : α) : Option Json → Option α
  | some j => read j
  | none => some default

def map? {κ α : Type} [Ord κ] [TransOrd κ] (key : String → Option κ) (value : Json → Option α) :
    Json → Option (ExtTreeMap κ α)
  | .object fields =>
    fields.foldlM
      (fun m f => do
        let k ← f.1.bind key
        let a ← value f.2
        return m.insert k a)
      ∅
  | _ => none

def array? {α : Type} (read : Json → Option α) : Json → Option (List α)
  | .array items => items.mapM read
  | _ => none

def count? : Json → Option Nat
  | .number spelling => (Decimal.natural? spelling.toList).filter fun n => decide (n < UInt64.size)
  | _ => none

def float? : Json → Option Float
  | .number spelling => readFinite? spelling.toList
  | _ => none

end Json

namespace ValueType

/-- The name of a type, alone or as the one field of an object that holds nothing else. -/
def decode? : Json → Option ValueType
  | .string (some name) => ofName? name
  | .object [(some name, .null)] => ofName? name
  | _ => none

end ValueType

namespace Bound

def decode? : Json → Option Bound
  | .number spelling =>
    match if spelling = "-0" then none else readInt64? spelling.toList with
    | some n => some (.int n)
    | none => (readFinite? spelling.toList).map .float
  | _ => none

/-- Nothing and `null` are alike. -/
def slot? : Option Json → Option (Option Bound)
  | none => some none
  | some .null => some none
  | some j => (decode? j).map some

end Bound

def Histogram.decode? (j : Json) : Option Histogram := do
  let [edges, counts, frequencies] ← j.slots? ["bins", "counts", "value_counts"] | none
  return {
    edges := ← Json.orElse (Json.array? Json.float?) [] edges
    counts := ← Json.orElse (Json.array? Json.count?) [] counts
    frequencies := ← Json.orElse (Json.map? some Json.count?) ∅ frequencies }

def decodeRanges? : Json → Option RangeMap :=
  Json.map? (fun s => (Threshold.parse s).toOption) Json.float?

def Selectivity.decode? (j : Json) : Option Selectivity := do
  let [eq, ne, gt, ge, lt, le] ← j.slots? ["eq", "ne", "gt", "ge", "lt", "le"] | none
  return {
    eq := ← Json.required Json.float? eq
    ne := ← Json.required Json.float? ne
    gt := ← Json.orElse decodeRanges? ∅ gt
    ge := ← Json.orElse decodeRanges? ∅ ge
    lt := ← Json.orElse decodeRanges? ∅ lt
    le := ← Json.orElse decodeRanges? ∅ le }

def Record.fieldNames : List String :=
  ["count", "null_count", "distinct_count", "min_value", "max_value", "histogram", "selectivity", "type"]

def Record.decode? (j : Json) : Option Record := do
  let [count, nullCount, distinctCount, least, greatest, histogram, selectivity, type] ←
    j.slots? fieldNames | none
  return {
    count := ← Json.required Json.count? count
    nullCount := ← Json.required Json.count? nullCount
    distinctCount := ← Json.required Json.count? distinctCount
    least := ← Bound.slot? least
    greatest := ← Bound.slot? greatest
    histogram := ← Json.orElse Histogram.decode? .empty histogram
    selectivity := ← Json.required Selectivity.decode? selectivity
    type := ← Json.required ValueType.decode? type }

def decodeCounts? : Json → Option (ExtTreeMap String Nat) := Json.map? some Json.count?

def decodeAttributes? : Json → Option (ExtTreeMap String Attributes) :=
  Json.map? some (Json.map? some Record.decode?)

namespace Profile

def fieldNames : List String :=
  ["v_cnt", "e_cnt", "v_label_cnt", "e_label_cnt", "v_attr_stats", "e_attr_stats"]

def decode? (j : Json) : Option Profile := do
  let [vertices, edges, vertexLabels, edgeLabels, vertexAttributes, edgeAttributes] ←
    j.slots? fieldNames | none
  let vertex : Section := {
    total := ← Json.required Json.count? vertices
    labelCounts := ← Json.orElse decodeCounts? ∅ vertexLabels
    attributes := ← Json.orElse decodeAttributes? ∅ vertexAttributes }
  let edge : Section := {
    total := ← Json.required Json.count? edges
    labelCounts := ← Json.orElse decodeCounts? ∅ edgeLabels
    attributes := ← Json.orElse decodeAttributes? ∅ edgeAttributes }
  return ⟨⟨vertex, edge⟩⟩

inductive Unreadable where
  | json
  | shape
deriving DecidableEq

def Unreadable.message : Unreadable → String
  | .json => "the text is no JSON value"
  | .shape => "the value is no profile"

def Unreadable.error (u : Unreadable) : Error := .serialization u.message

def read (bytes : ByteArray) : Except Unreadable Profile :=
  match Json.parse? bytes with
  | none => .error .json
  | some j =>
    match decode? j with
    | none => .error .shape
    | some p => .ok p

end Profile
end GraphProfile
