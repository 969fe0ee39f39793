import GraphProfile.Proofs.Binning
import GraphProfile.Proofs.Rearranged

set_option autoImplicit false

/-!
# What the range maps count

The four range maps are filled together, edge by edge, and an edge that comes again is written again. So under every
edge they have the shares of its last bin. With ascending edges that bin ends where a greater edge begins, or where all
values end, and the sums that run along the bins are the numbers of values below the two.
-/
namespace GraphProfile

theorem exists_last_of_mem {α : Type} {a : α} {l : List α} (h : a ∈ l) :
    ∃ before after, l = before ++ a :: after ∧ a ∉ after := by
  obtain ⟨after, before, hl, hafter⟩ := List.eq_append_cons_of_mem (List.mem_reverse.2 h)
  refine ⟨before.reverse, after.reverse, ?_, by rwa [List.mem_reverse]⟩
  rw [← List.reverse_reverse l, hl, List.reverse_append, List.reverse_cons, List.append_assoc, List.singleton_append]

namespace Selectivity

/-- The shares of rows that the range operators select at one edge. -/
structure Shares where
  lt : Float
  le : Float
  gt : Float
  ge : Float

/-- With so many rows below a bin and up to its end. -/
def Shares.ofCounts (rows below through : ℕ) : Shares where
  lt := ratio below rows
  le := ratio through rows
  gt := if 0 < rows then 1 - ratio through rows else 0
  ge := if 0 < rows then 1 - ratio below rows else 0

/-- What the four range maps have under a threshold. -/
def Holds (s : Selectivity) (t : Threshold) (found : Option Shares) : Prop :=
  s.lt[t]? = found.map Shares.lt ∧ s.le[t]? = found.map Shares.le ∧
    s.gt[t]? = found.map Shares.gt ∧ s.ge[t]? = found.map Shares.ge

theorem holds_equality (distinct : ℕ) (t : Threshold) : (equality distinct).Holds t none := ⟨rfl, rfl, rfl, rfl⟩

section
variable {s : Selectivity} {t : Threshold} {found : Option Shares} (h : s.Holds t found) (rows : ℕ)
include h

theorem Holds.setEdge_of_ne {edge : Threshold} (hne : edge ≠ t) (below through : ℕ) :
    (s.setEdge rows edge below through).Holds t found := by
  obtain ⟨hlt, hle, hgt, hge⟩ := h
  refine ⟨?_, ?_, ?_, ?_⟩
  · rw [← hlt, setEdge, Std.ExtTreeMap.getElem?_insert, if_neg (by simpa using hne)]
  · rw [← hle, setEdge, Std.ExtTreeMap.getElem?_insert, if_neg (by simpa using hne)]
  · rw [← hgt, setEdge, Std.ExtTreeMap.getElem?_insert, if_neg (by simpa using hne)]
  · rw [← hge, setEdge, Std.ExtTreeMap.getElem?_insert, if_neg (by simpa using hne)]

theorem Holds.fillBins {bins : List Bin} (hbins : t.value ∉ bins.map Bin.lo) (before : ℕ) :
    (fillBins rows s before bins).Holds t found := by
  induction bins generalizing s before with
  | nil => exact h
  | cons b bins ih =>
    rw [List.map_cons, List.mem_cons, not_or] at hbins
    refine ih (h.setEdge_of_ne rows ?_ before _) hbins.2 _
    rintro rfl
    exact hbins.1 rfl

end

theorem holds_setEdge (s : Selectivity) (rows : ℕ) (t : Threshold) (below through : ℕ) :
    (s.setEdge rows t below through).Holds t (some (.ofCounts rows below through)) := by
  refine ⟨?_, ?_, ?_, ?_⟩ <;> exact Std.ExtTreeMap.getElem?_insert_self

/-- Bins that come later and start elsewhere leave what a bin has written. -/
theorem holds_fillBins (s : Selectivity) (rows start : ℕ) (before : List Bin) (b : Bin) {after : List Bin}
    (hafter : b.lo ∉ after.map Bin.lo) :
    (fillBins rows s start (before ++ b :: after)).Holds ⟨b.lo⟩
      (some (.ofCounts rows (start + (before.map Bin.count).sum) (start + (before.map Bin.count).sum + b.count))) := by
  induction before generalizing s start with
  | nil => exact (holds_setEdge s rows ⟨b.lo⟩ start (start + b.count)).fillBins rows hafter _
  | cons d before ih =>
    have hrest := ih (s.setEdge rows ⟨d.lo⟩ start (start + d.count)) (start + d.count)
    rw [List.map_cons, List.sum_cons, ← Nat.add_assoc]
    exact hrest

end Selectivity

namespace Histogram

/-- The edges at which a bin starts: there is a next edge, and a count. -/
def starts (h : Histogram) : List Float := h.edges.dropLast.take h.counts.length

theorem map_lo_bins_eq_starts (h : Histogram) : h.bins.map Bin.lo = h.starts := by
  apply List.ext_getElem
  · simp [bins, starts, Nat.min_comm]
  · intro i _ _
    simp [bins, starts]

theorem map_count_bins_eq_take (h : Histogram) : h.bins.map Bin.count = h.counts.take (h.edges.length - 1) := by
  apply List.ext_getElem
  · simp [bins]
  · intro i _ _
    simp [bins]

section
variable {h : Histogram} (hlength : h.edges.length = h.counts.length + 1)
include hlength

theorem starts_of_length : h.starts = h.edges.dropLast := List.take_of_length_le (by rw [List.length_dropLast]; omega)

theorem map_lo_bins : h.bins.map Bin.lo = h.edges.dropLast := by
  rw [map_lo_bins_eq_starts, starts_of_length hlength]

theorem map_count_bins : h.bins.map Bin.count = h.counts := by
  rw [map_count_bins_eq_take, List.take_of_length_le (by omega)]

end

end Histogram

namespace Selectivity

theorem Holds.fillRanges {s : Selectivity} {t : Threshold} {found : Option Shares} (hs : s.Holds t found) {h : Histogram}
    (ht : t.value ∉ h.starts) (rows : ℕ) : (s.fillRanges h rows).Holds t found := by
  rw [← h.map_lo_bins_eq_starts] at ht
  exact hs.fillBins rows ht 0

/-- Elsewhere there are the shares of the last bin that starts there. -/
theorem holds_fillRanges (s : Selectivity) {h : Histogram} (rows : ℕ) {before : List Float} {edge : Float}
    {after : List Float} (hstarts : h.starts = before ++ edge :: after) (hafter : edge ∉ after) :
    (s.fillRanges h rows).Holds ⟨edge⟩ (some (.ofCounts rows (h.counts.take before.length).sum
      (h.counts.take (before.length + 1)).sum)) := by
  rw [← h.map_lo_bins_eq_starts] at hstarts
  obtain ⟨bsBefore, bsRest, hbins, rfl, hrest⟩ := List.map_eq_append_iff.1 hstarts
  obtain ⟨b, bsAfter, rfl, rfl, rfl⟩ := List.map_eq_cons_iff.1 hrest
  have hfill := holds_fillBins s rows 0 bsBefore b hafter
  have hcounts := h.map_count_bins_eq_take
  rw [hbins, List.map_append, List.map_cons] at hcounts
  -- the bins up to this one take their counts from the front of the histogram's
  have hlt : bsBefore.length + 1 ≤ h.edges.length - 1 := by
    have hlength := congrArg List.length hcounts
    simp only [List.length_append, List.length_map, List.length_cons, List.length_take] at hlength
    omega
  have hbefore : h.counts.take bsBefore.length = bsBefore.map Bin.count := by
    rw [← Nat.min_eq_left (Nat.le_of_succ_le hlt), ← List.take_take, ← hcounts, List.take_left' (List.length_map _)]
  have hthrough : h.counts.take (bsBefore.length + 1) = bsBefore.map Bin.count ++ [b.count] := by
    rw [← Nat.min_eq_left hlt, ← List.take_take, ← hcounts, List.append_cons, List.take_left' (by simp)]
  rw [← hbins, Nat.zero_add] at hfill
  rw [List.length_map, hbefore, hthrough, List.sum_append, List.sum_singleton]
  exact hfill

end Selectivity

namespace Histogram
open Decimal

/-- Under each edge at which a bin starts there are the shares of the last bin that does, and nothing elsewhere. -/
theorem holds_fillRanges {h : Histogram} (hlength : h.edges.length = h.counts.length + 1) (distinct rows : ℕ) :
    let filled := (Selectivity.equality distinct).fillRanges h rows
    (∀ t : Threshold, t.value ∉ h.edges.dropLast → filled.Holds t none) ∧
      ∀ before edge after, h.edges.dropLast = before ++ edge :: after → edge ∉ after →
        filled.Holds ⟨edge⟩ (some (.ofCounts rows (h.counts.take before.length).sum
          (h.counts.take (before.length + 1)).sum)) := by
  intro filled
  rw [← starts_of_length hlength]
  exact ⟨fun t ht => (Selectivity.holds_equality distinct t).fillRanges ht rows,
    fun before edge after hstarts hafter => Selectivity.holds_fillRanges _ rows hstarts hafter⟩

def valuesBelow (values : List Float) (edge : Float) : ℕ := values.countP (· < edge)

/-- The values before the next greater edge, or all of them if the last bin starts at the edge. -/
def valuesThrough (edges values : List Float) (edge : Float) : ℕ :=
  if edges.dropLast.getLast? = some edge then values.length
  else (edges.find? (edge < ·)).elim values.length (valuesBelow values)

theorem valuesBelow_le (values : List Float) (edge : Float) : valuesBelow values edge ≤ values.length :=
  List.countP_le_length

theorem valuesThrough_le (edges values : List Float) (edge : Float) :
    valuesThrough edges values edge ≤ values.length := by
  rw [valuesThrough]
  split
  · exact le_rfl
  · cases edges.find? (edge < ·) with
    | none => exact le_rfl
    | some next => exact valuesBelow_le values next

theorem valuesBelow_mono (values : List Float) {x y : Float} (h : x ≤ y) : valuesBelow values x ≤ valuesBelow values y := by
  apply List.countP_mono_left
  intro v _ hv
  exact decide_eq_true (float_lt_of_lt_of_le (of_decide_eq_true hv) h)

theorem valuesBelow_le_valuesThrough (edges values : List Float) (edge : Float) :
    valuesBelow values edge ≤ valuesThrough edges values edge := by
  rw [valuesThrough]
  split
  · exact valuesBelow_le values edge
  · cases hnext : edges.find? (edge < ·) with
    | none => exact valuesBelow_le values edge
    | some next =>
      have hlt : edge < next := by simpa using List.find?_some hnext
      exact valuesBelow_mono values (float_le_of_lt hlt)

section
variable {edges : List Float} (hascending : Ascending edges)
include hascending

theorem le_of_find?_eq_some {edge next other : Float} (hnext : edges.find? (edge < ·) = some next) (hother : other ∈ edges)
    (hlt : edge < other) : next ≤ other := by
  obtain ⟨-, before, after, rfl, hbefore⟩ := List.find?_eq_some_iff_append.1 hnext
  rcases List.mem_append.1 hother with hmem | hmem
  · have hnot := hbefore other hmem
    rw [decide_eq_true hlt] at hnot
    cases hnot
  · rcases List.mem_cons.1 hmem with rfl | hmem
    · exact float_le_refl (isNaN_of_lt hlt).2
    · exact (List.pairwise_cons.1 (List.pairwise_append.1 hascending).2.1).1 other hmem

variable (hzero : -0 ∉ edges)
include hzero

theorem valuesThrough_of_next {before : List Float} {edge next : Float} {rest : List Float}
    (hedges : edges = before ++ edge :: next :: rest) (hrest : rest ≠ []) (hne : edge ∉ (next :: rest).dropLast)
    (values : List Float) : valuesThrough edges values edge = valuesBelow values next := by
  subst hedges
  obtain ⟨-, hfollowing, hbefore⟩ := List.pairwise_append.1 hascending
  obtain ⟨hle, -⟩ := List.pairwise_cons.1 hfollowing
  have hfirst := hle next List.mem_cons_self
  have hlt : edge < next := by
    apply lt_of_le_of_ne_float hfirst
    · rintro rfl
      exact hne (by rw [List.dropLast_cons_of_ne_nil hrest]; exact List.mem_cons_self)
    · rintro rfl
      simp at hzero
    · rintro rfl
      simp at hzero
  have hlast : (before ++ edge :: next :: rest).dropLast.getLast? ≠ some edge := by
    intro hlast
    rw [List.dropLast_append_of_ne_nil (List.cons_ne_nil _ _), List.dropLast_cons_of_ne_nil (List.cons_ne_nil _ _),
      List.dropLast_cons_of_ne_nil hrest, List.getLast?_append_of_ne_nil _ (List.cons_ne_nil _ _),
      List.getLast?_cons_cons] at hlast
    rw [List.dropLast_cons_of_ne_nil hrest] at hne
    exact hne (List.mem_of_getLast? hlast)
  have hfind : (before ++ edge :: next :: rest).find? (edge < ·) = some next := by
    rw [List.find?_eq_some_iff_append]
    refine ⟨decide_eq_true hlt, before ++ [edge], rest, by simp, ?_⟩
    intro other hother
    have hother : other ≤ edge := by
      rcases List.mem_append.1 hother with hmem | hmem
      · exact hbefore other hmem edge List.mem_cons_self
      · rw [List.mem_singleton.1 hmem]
        exact float_le_refl (isNaN_of_lt hlt).1
    simpa using fun hgt => absurd hother ((float_not_le (isNaN_of_lt hgt).2 (isNaN_of_lt hgt).1).2 hgt)
  rw [valuesThrough, if_neg hlast, hfind, Option.elim_some]

theorem valuesThrough_mono (values : List Float) {x y : Float} (hx : x ∈ edges.dropLast) (hy : y ∈ edges.dropLast)
    (hxy : x ≤ y) : valuesThrough edges values x ≤ valuesThrough edges values y := by
  by_cases hylast : edges.dropLast.getLast? = some y
  · rw [valuesThrough.eq_def edges values y, if_pos hylast]
    exact valuesThrough_le edges values x
  · have hxlast : edges.dropLast.getLast? ≠ some x := by
      -- otherwise the two are one edge
      intro hxlast
      have hyx : y ≤ x := by
        obtain ⟨before, hbefore⟩ := List.getLast?_eq_some_iff.1 hxlast
        have hstarts := hascending.sublist (List.dropLast_sublist edges)
        rw [hbefore] at hstarts hy
        rcases List.mem_append.1 hy with hmem | hmem
        · exact (List.pairwise_append.1 hstarts).2.2 y hmem x List.mem_cons_self
        · rw [List.mem_singleton.1 hmem]
          exact float_le_refl (isNaN_of_le hxy).1
      have hmem : ∀ z ∈ edges.dropLast, z ≠ -0 := fun z hz h => hzero (h ▸ List.mem_of_mem_dropLast hz)
      exact hylast (by rw [hxlast, eq_of_le_of_le hxy hyx (hmem x hx) (hmem y hy)])
    rw [valuesThrough.eq_def edges values y, if_neg hylast]
    cases hnext : edges.find? (y < ·) with
    | none => exact valuesThrough_le edges values x
    | some next =>
      have hlt : y < next := by simpa using List.find?_some hnext
      have hxnext := float_lt_of_le_of_lt hxy hlt
      have hmem := List.mem_of_find?_eq_some hnext
      rw [valuesThrough, if_neg hxlast]
      cases hnext' : edges.find? (x < ·) with
      | none => simpa [hxnext] using List.find?_eq_none.1 hnext' next hmem
      | some next' => exact valuesBelow_mono values (le_of_find?_eq_some hascending hnext' hmem hxnext)

end

section
variable {edges values : List Float} {n : ℕ} (hascending : Ascending edges) (hlength : edges.length = n + 1) (hn : 0 < n)
  (hfirst : ∀ first, edges.head? = some first → ∀ v ∈ values, first ≤ v)
include hlength hn hfirst

theorem sum_eq_length : (countBins edges.toArray n values).toList.sum = values.length := by
  have hhead : edges[0]? = some edges[0] := List.getElem?_eq_getElem (by omega)
  apply sum_countBins_of_first _ _ _ hn
  intro v hv
  rw [hasReached, List.getElem?_toArray, hhead, Option.any_some]
  exact decide_eq_true (hfirst _ (by rw [List.head?_eq_getElem?, hhead]) v hv)

include hascending

theorem sum_take_eq_valuesBelow {k : ℕ} (hk : k < n) {edge : Float} (hedge : edges[k]? = some edge) :
    ((countBins edges.toArray n values).toList.take k).sum = valuesBelow values edge := by
  have hhead : edges[0]? = some edges[0] := List.getElem?_eq_getElem (by omega)
  rw [sum_take_countBins edges.toArray n values hk.le, valuesBelow]
  apply List.countP_congr
  intro v hv
  rw [any_bin?_iff hascending hlength hk hhead hedge, decide_eq_true_iff,
    and_iff_right (hfirst _ (by rw [List.head?_eq_getElem?, hhead]) v hv)]

/-- What runs along the bins is the number of values below the start of a bin, and below its end. -/
theorem sum_take_of_dropLast (hzero : -0 ∉ edges) {before : List Float} {edge : Float} {after : List Float}
    (hedges : edges.dropLast = before ++ edge :: after) (hafter : edge ∉ after) :
    ((countBins edges.toArray n values).toList.take before.length).sum = valuesBelow values edge ∧
      ((countBins edges.toArray n values).toList.take (before.length + 1)).sum = valuesThrough edges values edge := by
  have hne : edges ≠ [] := List.ne_nil_of_length_eq_add_one hlength
  have hsplit : edges = before ++ edge :: (after ++ [edges.getLast hne]) := by
    rw [← List.cons_append, ← List.append_assoc, ← hedges, List.dropLast_append_getLast]
  have hcount : before.length + after.length + 1 = n := by
    have hdrop := congrArg List.length hedges
    rw [List.length_dropLast, hlength, List.length_append, List.length_cons] at hdrop
    omega
  refine ⟨?_, ?_⟩
  · apply sum_take_eq_valuesBelow hascending hlength hn hfirst (by omega)
    rw [hsplit, List.getElem?_append_right le_rfl, Nat.sub_self]
    rfl
  · cases after with
    | nil =>
      have hlast : edges.dropLast.getLast? = some edge := by rw [hedges, List.getLast?_concat]
      have hsize : (countBins edges.toArray n values).toList.length ≤ before.length + 1 := by
        rw [Array.length_toList, size_countBins, ← hcount, List.length_nil]
      rw [List.take_of_length_le hsize, valuesThrough, if_pos hlast]
      exact sum_eq_length hlength hn hfirst
    | cons next after =>
      have hrest : edge ∉ (next :: (after ++ [edges.getLast hne])).dropLast := by
        rwa [← List.cons_append, List.dropLast_concat]
      rw [valuesThrough_of_next hascending hzero hsplit (by simp) hrest]
      apply sum_take_eq_valuesBelow hascending hlength hn hfirst (by rw [List.length_cons] at hcount; omega)
      rw [hsplit, List.getElem?_append_right (by omega), Nat.add_sub_cancel_left]
      rfl

end

end Histogram

def Typed.numbers : Typed → List Float
  | .int ns => ns.map nearestFloat
  | .float xs => xs
  | .text _ => []

theorem Typed.length_numbers_le (values : Typed) : values.numbers.length ≤ values.length := by
  cases values with
  | int ns => exact (List.length_map _).le
  | float xs => exact le_rfl
  | text ss => exact Nat.zero_le _

def Typed.spread? : Typed → Option Record.Spread
  | .int ns => Record.spreadOfInts? ns
  | .float xs => Record.spreadOfFloats? xs
  | .text _ => none

theorem Typed.exists_spread? {values : Typed} (h : values.numbers ≠ []) :
    ∃ s, values.spread? = some s ∧ s.values = values.numbers := by
  cases values with
  | text texts => exact absurd rfl h
  | float xs => exact ⟨_, if_neg h, rfl⟩
  | int ns =>
    cases ns with
    | nil => exact absurd rfl h
    | cons n rest => exact ⟨_, rfl, rfl⟩

namespace Record
open Histogram

theorem spreadOfInts?_eq_some {ns : List Int64} {s : Spread} (h : spreadOfInts? ns = some s) :
    ∃ least greatest, ns.min? = some least ∧ ns.max? = some greatest ∧
      s = ⟨.int least, .int greatest, distinctInts ns, ns.map nearestFloat⟩ := by
  unfold spreadOfInts? at h
  obtain ⟨least, hleast, h⟩ := Option.bind_eq_some_iff.1 h
  obtain ⟨greatest, hgreatest, h⟩ := Option.bind_eq_some_iff.1 h
  exact ⟨least, greatest, hleast, hgreatest, (Option.some.inj h).symm⟩

theorem spreadOfFloats?_eq_some {xs : List Float} {s : Spread} (h : spreadOfFloats? xs = some s) :
    xs ≠ [] ∧ s = ⟨.float (leastFloat xs), .float (greatestFloat xs), distinctFloats xs, xs⟩ := by
  unfold spreadOfFloats? at h
  rw [Option.ite_none_left_eq_some, Option.some.injEq] at h
  exact ⟨h.1, h.2.symm⟩

section
variable {maxBins rows : ℕ} {c : Classified}

theorem ofClassified_of_spread {s : Spread} (h : c.values.spread? = some s) :
    ofClassified maxBins rows c =
      { empty c.type with count := c.values.length, nullCount := c.nullCount }.withSpread maxBins rows (some s) := by
  rw [ofClassified]
  cases hvalues : c.values with
  | int ns =>
    rw [← h, hvalues]
    rfl
  | float xs =>
    rw [← h, hvalues]
    rfl
  | text texts =>
    rw [hvalues] at h
    cases h

theorem numbers_ne_nil (h : (ofClassified maxBins rows c).histogram.isEmpty = false) : c.values.numbers ≠ [] := by
  intro hnil
  rw [ofClassified] at h
  cases hvalues : c.values with
  | text texts =>
    simp only [hvalues, withTexts] at h
    split at h <;> cases h
  | int ns =>
    rw [hvalues, Typed.numbers, List.map_eq_nil_iff] at hnil
    rw [hvalues, hnil] at h
    cases h
  | float xs =>
    rw [hvalues, Typed.numbers] at hnil
    rw [hvalues, hnil] at h
    cases h

theorem exists_spread (h : (ofClassified maxBins rows c).histogram.isEmpty = false) :
    ∃ s : Spread, s.values = c.values.numbers ∧ s.values ≠ [] ∧
      (ofClassified maxBins rows c).histogram =
        equalWidth s.values s.least.toFloat s.greatest.toFloat s.distinct maxBins ∧
      (ofClassified maxBins rows c).selectivity =
        (Selectivity.equality s.distinct).fillRanges (ofClassified maxBins rows c).histogram rows := by
  have hne := numbers_ne_nil h
  obtain ⟨s, hs, hvalues⟩ := Typed.exists_spread? hne
  rw [← hvalues] at hne
  rw [ofClassified_of_spread hs]
  exact ⟨s, hvalues, hne, rfl, rfl⟩

end

/-- With ascending edges that no value is below, the range maps have the edges at which bins start, and under each of
    them the shares of the rows with a value below it and with one below the next. Rows without a value are among the
    rows, and both numbers grow along the edges. -/
theorem ranges_ofColumn {maxBins : ℕ} {declared : Option ValueType} {c : Column} :
    let values := (classify (declared.or c.declared) c.values).values.numbers
    let r := ofColumn maxBins declared c
    let edges := r.histogram.edges
    let rows := Float.ofNat c.length
    let below := valuesBelow values
    let through := valuesThrough edges values
    r.histogram.isEmpty = false → Ascending edges → -0 ∉ edges →
      (∀ first, edges.head? = some first → ∀ v ∈ values, first ≤ v) →
      (∀ t : Threshold, t.value ∉ edges.dropLast → r.selectivity.Holds t none) ∧
        (∀ e ∈ edges.dropLast, r.selectivity.Holds ⟨e⟩
          (some ⟨Float.ofNat (below e) / rows, Float.ofNat (through e) / rows, 1 - Float.ofNat (through e) / rows,
            1 - Float.ofNat (below e) / rows⟩)) ∧
        ∀ e ∈ edges.dropLast, below e ≤ through e ∧ through e ≤ c.length ∧
          ∀ e' ∈ edges.dropLast, e ≤ e' → below e ≤ below e' ∧ through e ≤ through e' := by
  intro values r edges rows below through hbins hascending hzero hfirst
  obtain ⟨s, hvalues, hne, hhistogram, hselectivity⟩ := exists_spread hbins
  have hle : values.length ≤ c.length := (Typed.length_numbers_le _).trans (length_typed_le c.values _)
  have hrows : 0 < c.length := by
    rw [hvalues] at hne
    exact (List.length_pos_iff.2 hne).trans_le hle
  have htwo : 1 < min maxBins s.distinct := by
    by_contra hone
    have hnone := hhistogram.trans (equalWidth_of_le (not_lt.1 hone))
    change r.histogram = _ at hnone
    rw [hnone] at hbins
    cases hbins
  change r.histogram = _ at hhistogram
  change r.selectivity = (Selectivity.equality s.distinct).fillRanges r.histogram c.length at hselectivity
  rw [equalWidth_of_lt htwo, hvalues] at hhistogram
  have hcounts : r.histogram.counts = (countBins edges.toArray (min maxBins s.distinct) values).toList := by
    simp only [edges, hhistogram]
    rfl
  have hedges : edges.length = min maxBins s.distinct + 1 := by
    simp only [edges, hhistogram]
    exact length_evenlySpaced _ _ _
  have hlength : r.histogram.edges.length = r.histogram.counts.length + 1 := by
    rw [hcounts, Array.length_toList, size_countBins]
    exact hedges
  obtain ⟨hnone, hsome⟩ := holds_fillRanges hlength s.distinct c.length
  rw [← hselectivity] at hnone hsome
  refine ⟨hnone, ?_, ?_⟩
  · intro e he
    obtain ⟨before, after, hsplit, hafter⟩ := exists_last_of_mem he
    have hshares := hsome before e after hsplit hafter
    obtain ⟨hbelow, hthrough⟩ := sum_take_of_dropLast hascending hedges (by omega) hfirst hzero hsplit hafter
    rw [hcounts, hbelow, hthrough, Selectivity.Shares.ofCounts, Selectivity.ratio, Selectivity.ratio, if_pos hrows,
      if_pos hrows, if_pos hrows, if_pos hrows] at hshares
    exact hshares
  · intro e he
    refine ⟨valuesBelow_le_valuesThrough edges values e, (valuesThrough_le edges values e).trans hle, ?_⟩
    intro e' he' hee'
    exact ⟨valuesBelow_mono values hee', valuesThrough_mono hascending hzero values he he' hee'⟩

/-- Three integers of which two are one float, and a row without a value: three bins start at two edges. -/
theorem ranges_ofColumn_collapsed :
    let c : Column :=
      ⟨"n", none, [some (.int 9007199254740992), none, some (.int 9007199254740993), some (.int 9007199254740994)]⟩
    let low : Float := 9007199254740992
    let high : Float := 9007199254740994
    let values := (classify (none.or c.declared) c.values).values.numbers
    let r := ofColumn 10 none c
    r.histogram.edges = [low, low, high, high] ∧ r.histogram.isEmpty = false ∧ Ascending r.histogram.edges ∧
      -0 ∉ r.histogram.edges ∧ (∀ first, r.histogram.edges.head? = some first → ∀ v ∈ values, first ≤ v) ∧
      r.selectivity.Holds ⟨low⟩ (some ⟨0 / 4, 2 / 4, 1 - 2 / 4, 1 - 0 / 4⟩) ∧
      r.selectivity.Holds ⟨high⟩ (some ⟨2 / 4, 3 / 4, 1 - 3 / 4, 1 - 2 / 4⟩) ∧
      r.selectivity.Holds ⟨3⟩ none ∧
      valuesThrough r.histogram.edges values low ≤ valuesThrough r.histogram.edges values high := by
  intro c low high values r
  have hedges : r.histogram.edges = [low, low, high, high] := by decide +kernel
  have hbins : r.histogram.isEmpty = false := by decide +kernel
  have hascending : Ascending r.histogram.edges := by
    rw [hedges]
    decide +kernel
  have hzero : -0 ∉ r.histogram.edges := by
    rw [hedges]
    decide +kernel
  have hvalues : values = [low, low, high] := by decide +kernel
  have hfirst : ∀ first, r.histogram.edges.head? = some first → ∀ v ∈ values, first ≤ v := by
    have hall : ∀ v ∈ [low, low, high], low ≤ v := by decide +kernel
    intro first hhead
    rw [hedges, List.head?_cons, Option.some.injEq] at hhead
    rwa [hvalues, ← hhead]
  obtain ⟨hnone, hsome, hmono⟩ := ranges_ofColumn hbins hascending hzero hfirst
  have hthroughLow : valuesThrough r.histogram.edges values low = 2 := by
    rw [hedges]
    decide +kernel
  have hthroughHigh : valuesThrough r.histogram.edges values high = 3 := by
    rw [hedges]
    decide +kernel
  have hbelowLow : valuesBelow values low = 0 := by decide +kernel
  have hbelowHigh : valuesBelow values high = 2 := by decide +kernel
  have hlow : low ∈ r.histogram.edges.dropLast := by
    rw [hedges]
    decide +kernel
  have hhigh : high ∈ r.histogram.edges.dropLast := by
    rw [hedges]
    decide +kernel
  refine ⟨hedges, hbins, hascending, hzero, hfirst, ?_, ?_, ?_, ?_⟩
  · have hshares := hsome low hlow
    rw [hbelowLow, hthroughLow] at hshares
    exact hshares
  · have hshares := hsome high hhigh
    rw [hbelowHigh, hthroughHigh] at hshares
    exact hshares
  · apply hnone
    rw [hedges]
    decide +kernel
  · exact ((hmono low hlow).2.2 high hhigh (by decide +kernel)).2

end Record
end GraphProfile
