import Std.Data.ExtTreeSet
import GraphProfile.Statistics.Classified
import GraphProfile.Statistics.Selectivity

set_option autoImplicit false

/-!
# The record of one attribute

What is kept of a column: how many values it has and lacks, how many differ, the bounds of a numeric column, the
distribution, and the selectivities that follow from it. Every column has a record; parts that make no sense for
it are empty.
-/
namespace GraphProfile
open Std

structure Record where
  count : Nat
  nullCount : Nat
  distinctCount : Nat
  least : Option Bound
  greatest : Option Bound
  histogram : Histogram
  selectivity : Selectivity
  type : ValueType
deriving DecidableEq

namespace Record

def empty (type : ValueType) : Record where
  count := 0
  nullCount := 0
  distinctCount := 0
  least := none
  greatest := none
  histogram := .empty
  selectivity := .unknown
  type := type

def totalRows (r : Record) : Nat := r.count + r.nullCount

/-- The numbers of a column with their bounds; there is none without a value. -/
structure Spread where
  least : Bound
  greatest : Bound
  distinct : Nat
  values : List Float

def distinctInts (ns : List Int64) : Nat := (ExtTreeSet.ofList (ns.map Int64.toInt)).size

/-- Both zeros are one value. -/
def distinctFloats (xs : List Float) : Nat :=
  (ExtTreeSet.ofList (xs.map fun x => Threshold.mk (if x == 0 then 0 else x))).size

/-- Integers are compared exactly, and only then turned into floats. -/
def spreadOfInts? (ns : List Int64) : Option Spread := do
  let least ← ns.min?
  let greatest ← ns.max?
  return ⟨.int least, .int greatest, distinctInts ns, ns.map nearestFloat⟩

def leastFloat (xs : List Float) : Float :=
  xs.foldl (fun m x => if x < m then x else m) Decimal.infinity

def greatestFloat (xs : List Float) : Float :=
  xs.foldl (fun m x => if m < x then x else m) (-Decimal.infinity)

def spreadOfFloats? (xs : List Float) : Option Spread :=
  if xs = [] then none
  else some ⟨.float (leastFloat xs), .float (greatestFloat xs), distinctFloats xs, xs⟩

def withSpread (maxBins rows : Nat) (r : Record) : Option Spread → Record
  | none => r
  | some s =>
    let histogram :=
      Histogram.equalWidth s.values s.least.toFloat s.greatest.toFloat s.distinct maxBins
    { r with
      least := some s.least
      greatest := some s.greatest
      distinctCount := s.distinct
      histogram
      selectivity := (Selectivity.equality s.distinct).fillRanges histogram rows }

def withTexts (r : Record) (texts : List String) : Record :=
  if texts = [] then r
  else
    let histogram := Histogram.ofTexts texts
    { r with
      distinctCount := histogram.frequencies.size
      histogram
      selectivity := .equality histogram.frequencies.size }

def ofClassified (maxBins rows : Nat) (c : Classified) : Record :=
  let r := { empty c.type with count := c.values.length, nullCount := c.nullCount }
  match c.values with
  | .text texts => r.withTexts texts
  | .int ns => r.withSpread maxBins rows (spreadOfInts? ns)
  | .float xs => r.withSpread maxBins rows (spreadOfFloats? xs)

/-- `declared`, if given, is taken for the type that the column itself declares. -/
def ofColumn (maxBins : Nat) (declared : Option ValueType) (c : Column) : Record :=
  ofClassified maxBins c.length (classify (declared.or c.declared) c.values)

end Record
end GraphProfile
