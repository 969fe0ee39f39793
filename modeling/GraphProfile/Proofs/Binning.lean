import GraphProfile.Proofs.FloatOrder
import GraphProfile.Statistics.Histogram

set_option autoImplicit false

/-!
# Bins and the values in them

Where the edges ascend, the edges that a value has reached are the first ones, and the bisection finds how many they
are. So a bin counts the values from its left edge to below its right one, and the last bin all from its left edge on.
Edges may be equal: the bins between equal edges are empty, but for the last.
-/
namespace GraphProfile.Histogram
open Decimal

/-- No edge is above the next. What is no number is no such edge. -/
def Ascending (edges : List Float) : Prop := edges.Pairwise (· ≤ ·)

instance (edges : List Float) : Decidable (Ascending edges) := inferInstanceAs (Decidable (edges.Pairwise _))

def hasReached (edges : Array Float) (v : Float) (i : ℕ) : Bool := edges[i]?.any (· ≤ v)

section
variable {edges : Array Float} {v : Float}

theorem bisect_eq_or_hasReached (base size : ℕ) :
    bisect edges v base size = base ∨ hasReached edges v (bisect edges v base size) := by
  induction size using Nat.strong_induction_on generalizing base with
  | h size ih =>
    rw [bisect]
    by_cases hsize : size ≤ 1
    · exact .inl (if_pos hsize)
    · rw [if_neg hsize]
      have hhalf : size - size / 2 < size := by omega
      by_cases hreached : hasReached edges v (base + size / 2)
      · have hrest := ih (size - size / 2) hhalf (base + size / 2)
        rw [hasReached] at hreached
        simp only [hreached, if_true]
        right
        rcases hrest with heq | hlast
        · rwa [heq]
        · exact hlast
      · have hrest := ih (size - size / 2) hhalf base
        rw [hasReached] at hreached
        simp only [hreached]
        exact hrest

/-- A value that has reached the first edge is in a bin, even if the edges do not ascend. -/
theorem reached_pos (h : hasReached edges v 0) : 0 < reached edges v := by
  have hlast : hasReached edges v (bisect edges v 0 edges.size) := by
    rcases bisect_eq_or_hasReached 0 edges.size with heq | hlast
    · rwa [heq]
    · exact hlast
  rw [reached]
  exact (if_pos hlast).symm ▸ Nat.succ_pos _

/-- The edge that is left is the last one reached, unless not even the first one is. -/
theorem bisect_spec (hdown : ∀ i j, i ≤ j → hasReached edges v j → hasReached edges v i) (base size : ℕ)
    (hbeyond : ∀ i, base + size ≤ i → hasReached edges v i = false) :
    (bisect edges v base size = base ∨ hasReached edges v (bisect edges v base size)) ∧
      ∀ i, bisect edges v base size < i → hasReached edges v i = false := by
  refine ⟨bisect_eq_or_hasReached base size, ?_⟩
  induction size using Nat.strong_induction_on generalizing base with
  | h size ih =>
    rw [bisect]
    by_cases hsize : size ≤ 1
    · rw [if_pos hsize]
      exact fun i hi => hbeyond i (by omega)
    · rw [if_neg hsize]
      have hhalf : size - size / 2 < size := by omega
      by_cases hreached : hasReached edges v (base + size / 2)
      · have hrest := ih (size - size / 2) hhalf (base + size / 2) fun i hi => hbeyond i (by omega)
        rw [hasReached] at hreached
        simp only [hreached, if_true]
        exact hrest
      · have hrest := ih (size - size / 2) hhalf base fun i hi => by
          by_contra hi'
          exact hreached (hdown (base + size / 2) i (by omega) (by simpa using hi'))
        rw [hasReached] at hreached
        simp only [hreached]
        exact hrest

theorem lt_reached_iff (hdown : ∀ i j, i ≤ j → hasReached edges v j → hasReached edges v i) (i : ℕ) :
    i < reached edges v ↔ hasReached edges v i := by
  obtain ⟨hlast, habove⟩ := bisect_spec hdown 0 edges.size fun i hi => by
    rw [hasReached, Array.getElem?_eq_none (by omega)]
    rfl
  have hreached : reached edges v = if hasReached edges v (bisect edges v 0 edges.size)
      then bisect edges v 0 edges.size + 1 else bisect edges v 0 edges.size := rfl
  rw [hreached]
  generalize bisect edges v 0 edges.size = last at *
  by_cases hmost : hasReached edges v last
  · rw [if_pos hmost]
    constructor
    · intro hi
      exact hdown i last (by omega) hmost
    · intro hi
      by_contra hlt
      rw [habove i (by omega)] at hi
      cases hi
  · rw [if_neg hmost]
    have hzero : last = 0 := hlast.resolve_right hmost
    refine iff_of_false (by omega) ?_
    intro hi
    rcases Nat.eq_zero_or_pos i with rfl | hpos
    · exact hmost (hzero ▸ hi)
    · rw [habove i (by omega)] at hi
      cases hi

end

section
variable {edges : List Float} (hascending : Ascending edges)
include hascending

theorem Ascending.le {i j : ℕ} {x y : Float} (hij : i < j) (hx : edges[i]? = some x) (hy : edges[j]? = some y) :
    x ≤ y := by
  obtain ⟨hi, rfl⟩ := List.getElem?_eq_some_iff.1 hx
  obtain ⟨hj, rfl⟩ := List.getElem?_eq_some_iff.1 hy
  exact List.pairwise_iff_getElem.1 hascending i j hi hj hij

theorem Ascending.hasReached_of_le (v : Float) (i j : ℕ) (hij : i ≤ j) (h : hasReached edges.toArray v j) :
    hasReached edges.toArray v i := by
  rcases hij.eq_or_lt with rfl | hlt
  · exact h
  · rw [hasReached, List.getElem?_toArray] at h ⊢
    obtain ⟨y, hy, hyv⟩ := (Option.any_eq_true ..).1 h
    obtain ⟨hj, -⟩ := List.getElem?_eq_some_iff.1 hy
    have hx := List.getElem?_eq_getElem (hlt.trans hj)
    rw [hx, Option.any_some]
    exact decide_eq_true (float_le_trans (hascending.le hlt hx hy) (of_decide_eq_true hyv))

theorem Ascending.lt_reached_iff {i : ℕ} {edge : Float} (hedge : edges[i]? = some edge) (v : Float) :
    i < reached edges.toArray v ↔ edge ≤ v := by
  rw [Histogram.lt_reached_iff (hascending.hasReached_of_le v), hasReached, List.getElem?_toArray, hedge, Option.any_some,
    decide_eq_true_iff]

/-- With two edges or more each of them is in a comparison that holds. -/
theorem Ascending.isNaN_eq_false (htwo : 1 < edges.length) {i : ℕ} {edge : Float} (hedge : edges[i]? = some edge) :
    edge.isNaN = false := by
  rcases Nat.eq_zero_or_pos i with rfl | hpos
  · exact (isNaN_of_le (hascending.le one_pos hedge (List.getElem?_eq_getElem htwo))).1
  · exact (isNaN_of_le (hascending.le hpos (List.getElem?_eq_getElem (by omega)) hedge)).2

end

def bin? (edges : Array Float) (n : ℕ) (v : Float) : Option ℕ :=
  match reached edges v with
  | 0 => none
  | i + 1 => some (min i (n - 1))

section
variable (edges : Array Float) (n : ℕ) (values : List Float)

theorem bin?_eq_some (v : Float) (i : ℕ) :
    bin? edges n v = some i ↔ 0 < reached edges v ∧ min (reached edges v - 1) (n - 1) = i := by
  rw [bin?]
  cases reached edges v with
  | zero => simp
  | succ j => simp

theorem any_bin? (v : Float) (k : ℕ) :
    (bin? edges n v).any (· < k) ↔ 0 < reached edges v ∧ min (reached edges v - 1) (n - 1) < k := by
  simp only [Option.any_eq_true, bin?_eq_some, decide_eq_true_eq]
  constructor
  · rintro ⟨i, ⟨hreached, rfl⟩, hi⟩
    exact ⟨hreached, hi⟩
  · rintro ⟨hreached, hi⟩
    exact ⟨_, ⟨hreached, rfl⟩, hi⟩

theorem countBins_eq :
    countBins edges n values = values.foldl (fun counts v => (bin? edges n v).elim counts (counts.modify · (· + 1)))
      (Array.replicate n 0) := by
  have hstep : ∀ (counts : Array ℕ) (v : Float), (bin? edges n v).elim counts (counts.modify · (· + 1)) =
      match reached edges v with
      | 0 => counts
      | i + 1 => counts.modify (min i (n - 1)) (· + 1) := by
    intro counts v
    rw [bin?]
    cases reached edges v <;> rfl
  simp only [hstep]
  rfl

theorem getElem?_countBins (k : ℕ) :
    (countBins edges n values)[k]? = if k < n then some (values.countP fun v => bin? edges n v = some k) else none := by
  have hfold : ∀ counts : Array ℕ,
      (values.foldl (fun counts v => (bin? edges n v).elim counts (counts.modify · (· + 1))) counts)[k]? =
        counts[k]?.map (· + values.countP fun v => bin? edges n v = some k) := by
    induction values with
    | nil =>
      intro counts
      simp
    | cons v values ih =>
      intro counts
      rw [List.foldl_cons, ih, List.countP_cons]
      cases bin? edges n v with
      | none => simp
      | some i =>
        simp only [Option.elim_some, Array.getElem?_modify, Option.some.injEq, decide_eq_true_eq]
        by_cases hk : i = k
        · rw [if_pos hk, if_pos hk, Option.map_map]
          congr 1
          funext count
          simp only [Function.comp_apply]
          omega
        · rw [if_neg hk, if_neg hk, Nat.add_zero]
  rw [countBins_eq, hfold, Array.getElem?_replicate]
  split
  · rw [Option.map_some, Nat.zero_add]
  · rfl

theorem size_countBins : (countBins edges n values).size = n := by
  have hnone := getElem?_countBins edges n values n
  have hsome := getElem?_countBins edges n values (n - 1)
  rw [if_neg (lt_irrefl n), Array.getElem?_eq_none_iff] at hnone
  by_cases hn : n = 0
  · omega
  · rw [if_pos (by omega), Array.getElem?_eq_some_iff] at hsome
    obtain ⟨hlt, -⟩ := hsome
    omega

theorem sum_take_countBins {k : ℕ} (hk : k ≤ n) :
    ((countBins edges n values).toList.take k).sum = values.countP fun v => (bin? edges n v).any (· < k) := by
  induction k with
  | zero =>
    rw [List.take_zero, List.sum_nil]
    symm
    rw [List.countP_eq_zero]
    intro v _
    simp
  | succ k ih =>
    have hcount := getElem?_countBins edges n values k
    have hsplit : ∀ l : List Float, l.countP (fun v => (bin? edges n v).any (· < k + 1)) =
        l.countP (fun v => (bin? edges n v).any (· < k)) + l.countP fun v => bin? edges n v = some k := by
      intro l
      induction l with
      | nil => rfl
      | cons v l ihl =>
        rw [List.countP_cons, List.countP_cons, List.countP_cons, ihl]
        cases bin? edges n v with
        | none => simp
        | some i =>
          simp only [Option.any_some, decide_eq_true_eq, Option.some.injEq]
          split <;> split <;> split <;> omega
    rw [if_pos (by omega), ← Array.getElem?_toList] at hcount
    rw [List.take_add_one, List.sum_append, ih (by omega), hcount, hsplit, Option.toList_some, List.sum_singleton]

/-- All values from the first edge on are counted, whatever the other edges are. -/
theorem sum_countBins_of_first (hn : 0 < n) (hfirst : ∀ v ∈ values, hasReached edges v 0) :
    (countBins edges n values).toList.sum = values.length := by
  have hsize : (countBins edges n values).toList.length ≤ n := (size_countBins edges n values).le
  have hsum := sum_take_countBins edges n values le_rfl
  rw [List.take_of_length_le hsize] at hsum
  rw [hsum, List.countP_eq_length]
  intro v hv
  have hreached := reached_pos (hfirst v hv)
  exact (any_bin? edges n v n).2 ⟨hreached, by omega⟩

end

section
variable {edges : List Float} (hascending : Ascending edges) {n : ℕ}
include hascending

theorem bin?_eq_some_last_iff (hn : 0 < n) {lo : Float} (hlo : edges[n - 1]? = some lo) (v : Float) :
    bin? edges.toArray n v = some (n - 1) ↔ lo ≤ v := by
  rw [← hascending.lt_reached_iff hlo v, bin?_eq_some]
  omega

theorem any_bin?_all_iff (hn : 0 < n) {first : Float} (hfirst : edges[0]? = some first) (v : Float) :
    (bin? edges.toArray n v).any (· < n) ↔ first ≤ v := by
  rw [← hascending.lt_reached_iff hfirst v, any_bin?]
  omega

theorem sum_countBins (values : List Float) (hn : 0 < n) {first : Float} (hfirst : edges[0]? = some first) :
    (countBins edges.toArray n values).toList.sum = values.countP fun v => first ≤ v := by
  have hsize : (countBins edges.toArray n values).toList.length ≤ n := (size_countBins edges.toArray n values).le
  have hsum := sum_take_countBins edges.toArray n values le_rfl
  rw [List.take_of_length_le hsize] at hsum
  rw [hsum]
  apply List.countP_congr
  intro v _
  rw [any_bin?_all_iff hascending hn hfirst, decide_eq_true_iff]

variable (hlength : edges.length = n + 1)
include hlength

theorem bin?_eq_some_iff {i : ℕ} {lo hi : Float} (hi' : i + 1 < n) (hlo : edges[i]? = some lo)
    (hhi : edges[i + 1]? = some hi) (v : Float) : bin? edges.toArray n v = some i ↔ lo ≤ v ∧ v < hi := by
  have hreachedLo := hascending.lt_reached_iff hlo v
  have hreachedHi := hascending.lt_reached_iff hhi v
  have hnumber := hascending.isNaN_eq_false (by omega) hhi
  have hbin : bin? edges.toArray n v = some i ↔ i < reached edges.toArray v ∧ ¬i + 1 < reached edges.toArray v := by
    rw [bin?_eq_some]
    omega
  rw [hbin, hreachedLo, hreachedHi, and_congr_right_iff]
  intro hle
  exact float_not_le hnumber (isNaN_of_le hle).2

theorem any_bin?_iff {k : ℕ} (hk : k < n) {first lo : Float} (hfirst : edges[0]? = some first)
    (hlo : edges[k]? = some lo) (v : Float) : (bin? edges.toArray n v).any (· < k) ↔ first ≤ v ∧ v < lo := by
  have hreachedFirst := hascending.lt_reached_iff hfirst v
  have hreachedLo := hascending.lt_reached_iff hlo v
  have hnumber := hascending.isNaN_eq_false (by omega) hlo
  have hbin : (bin? edges.toArray n v).any (· < k) ↔ 0 < reached edges.toArray v ∧ ¬k < reached edges.toArray v := by
    rw [any_bin?]
    omega
  rw [hbin, hreachedFirst, hreachedLo, and_congr_right_iff]
  intro hle
  exact float_not_le hnumber (isNaN_of_le hle).2

end

theorem length_evenlySpaced (start stop : Float) (n : ℕ) : (evenlySpaced start stop n).length = n := by
  match n with
  | 0 => rfl
  | 1 => rfl
  | n + 2 => simp [evenlySpaced]

section
variable {values : List Float} {least greatest : Float} {distinct maxBins : ℕ}

theorem equalWidth_of_le (h : min maxBins distinct ≤ 1) : equalWidth values least greatest distinct maxBins = empty := by
  rw [equalWidth, if_pos h]

theorem equalWidth_of_lt (h : 1 < min maxBins distinct) :
    equalWidth values least greatest distinct maxBins =
      ⟨evenlySpaced least greatest (min maxBins distinct + 1),
        (countBins (evenlySpaced least greatest (min maxBins distinct + 1)).toArray (min maxBins distinct) values).toList,
        ∅⟩ := by
  rw [equalWidth, if_neg (not_le.2 h)]

end

/-- There are no bins where there would be fewer than two. Otherwise each counts what plain comparison finds in it, if
    the edges ascend, and together they count what has reached the first edge. -/
theorem equalWidth_counts (values : List Float) (least greatest : Float) (distinct maxBins : ℕ) :
    let n := min maxBins distinct
    let h := equalWidth values least greatest distinct maxBins
    (n ≤ 1 → h = empty) ∧
      (1 < n → h.edges.length = n + 1 ∧ h.counts.length = n ∧
        (Ascending h.edges →
          (∀ i lo hi, i + 1 < n → h.edges[i]? = some lo → h.edges[i + 1]? = some hi →
            h.counts[i]? = some (values.countP fun v => lo ≤ v ∧ v < hi)) ∧
          (∀ lo, h.edges[n - 1]? = some lo → h.counts[n - 1]? = some (values.countP fun v => lo ≤ v)) ∧
          ∀ first, h.edges[0]? = some first →
            h.counts.sum = (values.countP fun v => first ≤ v) ∧
              ((∀ v ∈ values, v.isNaN = false ∧ ¬v < first) → h.counts.sum = values.length))) := by
  intro n h
  refine ⟨equalWidth_of_le, ?_⟩
  intro hn
  have hh : h = ⟨evenlySpaced least greatest (n + 1),
      (countBins (evenlySpaced least greatest (n + 1)).toArray n values).toList, ∅⟩ := equalWidth_of_lt hn
  have hlength := length_evenlySpaced least greatest (n + 1)
  rw [hh]
  refine ⟨hlength, size_countBins _ _ _, ?_⟩
  simp only
  generalize evenlySpaced least greatest (n + 1) = edges at *
  intro hascending
  refine ⟨?_, ?_, ?_⟩
  · intro i lo hi hi' hlo hhi
    rw [Array.getElem?_toList, getElem?_countBins, if_pos (by omega)]
    simp only [bin?_eq_some_iff hascending hlength hi' hlo hhi]
  · intro lo hlo
    rw [Array.getElem?_toList, getElem?_countBins, if_pos (by omega)]
    simp only [bin?_eq_some_last_iff hascending (by omega) hlo]
  · intro first hfirst
    have hsum := sum_countBins hascending values (one_pos.trans hn) hfirst
    refine ⟨hsum, ?_⟩
    intro hall
    have hnumber := hascending.isNaN_eq_false (by omega) hfirst
    rw [hsum, List.countP_eq_length]
    intro v hv
    obtain ⟨hv', hle⟩ := hall v hv
    rw [decide_eq_true_iff]
    by_contra hlt
    exact hle ((float_not_le hnumber hv').1 hlt)

/-- Half steps between neighbouring floats: of five edges three are one number and two the next. -/
theorem equalWidth_counts_repeated :
    let low : Float := 9007199254740992
    let high : Float := 9007199254740994
    let values := [low, 3, high, nan, low, infinity]
    let h := equalWidth values low high 4 10
    1 < min 10 4 ∧ Ascending h.edges ∧ h.edges = [low, low, low, high, high] ∧ h.counts.length = 4 ∧
      h.counts[1]? = some (values.countP fun v => low ≤ v ∧ v < low) ∧
      h.counts[2]? = some (values.countP fun v => low ≤ v ∧ v < high) ∧
      h.counts[3]? = some (values.countP fun v => high ≤ v) ∧ h.counts.sum = values.countP fun v => low ≤ v := by
  intro low high values h
  have hedges : h.edges = [low, low, low, high, high] := by decide +kernel
  have hascending : Ascending h.edges := by
    rw [hedges]
    decide +kernel
  obtain ⟨-, hlength, hrest⟩ := (equalWidth_counts values low high 4 10).2 (by decide)
  obtain ⟨hinner, hlast, hsum⟩ := hrest hascending
  refine ⟨by decide, hascending, hedges, hlength, ?_, ?_, ?_, ?_⟩
  · exact hinner 1 low low (by decide) (by rw [hedges]; rfl) (by rw [hedges]; rfl)
  · exact hinner 2 low high (by decide) (by rw [hedges]; rfl) (by rw [hedges]; rfl)
  · exact hlast high (by rw [hedges]; rfl)
  · exact (hsum low (by rw [hedges]; rfl)).1

end GraphProfile.Histogram
