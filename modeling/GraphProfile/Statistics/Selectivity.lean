import GraphProfile.Statistics.Histogram
import GraphProfile.Statistics.Threshold

set_option autoImplicit false

/-!
# Selectivity of the comparison operators

The share of rows that a comparison is expected to select. Equality has one number for the whole column. The
range operators have a map each, keyed by the left edges of the bins; the four maps are always filled together.
-/
namespace GraphProfile
open Std

abbrev RangeMap := ExtTreeMap Threshold Float

/-- Two maps are the same when they hold the same floats, bit by bit. -/
instance : DecidableEq RangeMap := fun _ _ => decidable_of_iff _ ExtTreeMap.toList_inj

structure Selectivity where
  eq : Float
  ne : Float
  gt : RangeMap
  ge : RangeMap
  lt : RangeMap
  le : RangeMap
deriving DecidableEq

namespace Selectivity

/-- Every distinct value is taken to be equally frequent. -/
def equality (distinct : Nat) : Selectivity :=
  let eq := if 0 < distinct then 1 / Float.ofNat distinct else 1
  { eq, ne := 1 - eq, gt := ∅, ge := ∅, lt := ∅, le := ∅ }

def unknown : Selectivity := equality 0

def ratio (n rows : Nat) : Float := if 0 < rows then Float.ofNat n / Float.ofNat rows else 0

/-- The entries under an edge with `below` rows before its bin and `through` rows up to the bin's end. -/
def setEdge (s : Selectivity) (rows : Nat) (edge : Threshold) (below through : Nat) : Selectivity :=
  { s with
    lt := s.lt.insert edge (ratio below rows)
    le := s.le.insert edge (ratio through rows)
    gt := s.gt.insert edge (if 0 < rows then 1 - ratio through rows else 0)
    ge := s.ge.insert edge (if 0 < rows then 1 - ratio below rows else 0) }

def fillBins (rows : Nat) : Selectivity → Nat → List Bin → Selectivity
  | s, _, [] => s
  | s, below, b :: bs => fillBins rows (s.setEdge rows ⟨b.lo⟩ below (below + b.count)) (below + b.count) bs

/-- `rows` counts the rows without a value too. -/
def fillRanges (s : Selectivity) (h : Histogram) (rows : Nat) : Selectivity := fillBins rows s 0 h.bins

def hasRanges (s : Selectivity) : Bool := !s.lt.isEmpty

end Selectivity
end GraphProfile
