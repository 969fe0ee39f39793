import Std.Data.ExtTreeMap

set_option autoImplicit false

/-!
# Histograms

Numbers are counted in bins of equal width between the least and the greatest of them; texts are counted one by
one. Every bin holds its left edge and not its right one, but the last bin holds whatever is not below its left
edge. A value's bin is found by bisection of the edges. Fewer than two bins describe no spread, so none are made.
-/
namespace GraphProfile
open Std

structure Histogram where
  /-- Edges of the bins, one more than there are bins. -/
  edges : List Float
  counts : List Nat
  frequencies : ExtTreeMap String Nat
deriving DecidableEq

structure Bin where
  lo : Float
  hi : Float
  count : Nat
deriving DecidableEq

/-- `n` points from `start` to `stop` at equal distances. The last one is `stop` itself, not a sum. -/
def evenlySpaced (start stop : Float) : Nat → List Float
  | 0 => []
  | 1 => [start]
  | n + 2 =>
    let step := (stop - start) / Float.ofNat (n + 1)
    (List.range (n + 1)).map (fun i => start + step * Float.ofNat i) ++ [stop]

namespace Histogram

def empty : Histogram := ⟨[], [], ∅⟩

instance : Inhabited Histogram := ⟨empty⟩

def defaultMaxBins : Nat := 10

def binCount (h : Histogram) : Nat := h.counts.length

def isEmpty (h : Histogram) : Bool := h.counts.isEmpty

def bins (h : Histogram) : List Bin :=
  List.zipWith (fun edge count => ⟨edge.1, edge.2, count⟩) (h.edges.zip h.edges.tail) h.counts

/-- Of the `size` edges from `base` on, halves are dropped until one is left that the value has reached, if it
    has reached any of them. -/
def bisect (edges : Array Float) (v : Float) (base size : Nat) : Nat :=
  if size ≤ 1 then base
  else
    let half := size / 2
    let base := if edges[base + half]?.any (· ≤ v) then base + half else base
    bisect edges v base (size - half)
termination_by size

/-- How many edges a value has reached, if the edges ascend. -/
def reached (edges : Array Float) (v : Float) : Nat :=
  let last := bisect edges v 0 edges.size
  if edges[last]?.any (· ≤ v) then last + 1 else last

/-- Values below the first edge are in no bin. -/
def countBins (edges : Array Float) (n : Nat) (values : List Float) : Array Nat :=
  values.foldl
    (fun counts v =>
      match reached edges v with
      | 0 => counts
      | i + 1 => counts.modify (min i (n - 1)) (· + 1))
    (Array.replicate n 0)

def equalWidth (values : List Float) (least greatest : Float) (distinct maxBins : Nat) : Histogram :=
  let n := min maxBins distinct
  if n ≤ 1 then empty
  else
    let edges := evenlySpaced least greatest (n + 1)
    { edges, counts := (countBins edges.toArray n values).toList, frequencies := ∅ }

def countTexts (texts : List String) : ExtTreeMap String Nat :=
  texts.foldl (fun counts s => counts.alter s fun n => some (n.getD 0 + 1)) ∅

def ofTexts (texts : List String) : Histogram := ⟨[], [], countTexts texts⟩

end Histogram
end GraphProfile
