import GraphProfile.Proofs.EdgeEstimates
import GraphProfile.Proofs.Literals

set_option autoImplicit false

/-!
# Range estimates at the bounds of a column

No bin starts below the least value, so there the estimates are exact: nothing is below it, and all values are from it
on. The bins are meant to end with the greatest value, and where the last one starts below it all values are up to it
and none is above. But edges are rounded. A last bin that starts at the greatest value has no width, and as the target
is not above its start none of the values in it are taken to lie below. These are the values that the estimates miss. A
last bin that starts beyond the greatest value is empty, but then the target lies in a bin before it.
-/
namespace GraphProfile
open Decimal

/-- The start of a bin, of `n` in all. -/
def point (start stop : Float) (n i : ℕ) : Float := start + (stop - start) / Float.ofNat n * Float.ofNat i

theorem evenlySpaced_eq (start stop : Float) {n : ℕ} (hn : 0 < n) :
    evenlySpaced start stop (n + 1) = (List.range n).map (point start stop n) ++ [stop] := by
  cases n with
  | zero => cases hn
  | succ n => rfl

/-- Two finite numbers and their distance, which is gone in so many steps. -/
structure Stretch (start stop : Float) (n : ℕ) : Prop where
  start_finite : start.isFinite
  stop_finite : stop.isFinite
  le : start ≤ stop
  width_finite : (stop - start).isFinite
  pos : 0 < n
  small : n ≤ 2 ^ 64

namespace Stretch

variable {start stop : Float} {n : ℕ} (hs : Stretch start stop n)
include hs

theorem step_nonneg : 0 ≤ (stop - start) / Float.ofNat n ∧ ((stop - start) / Float.ofNat n).isFinite := by
  have hcount := isFinite_ofNat hs.small
  have hpos := ofNat_pos hs.pos
  have hdifference := float_sub_nonneg hs.start_finite hs.stop_finite hs.le
  have hlower := float_div_le_div (float_le_refl isNearest_zeroFloat.number) hdifference hcount hpos
  rw [float_zero_div hpos] at hlower
  have hone : 1 ≤ toRat (Float.ofNat n) := by
    rw [← toRat_one, ← le_iff_toRat isFinite_one hcount]
    exact ofNat_le_ofNat hs.pos
  have hupper : (stop - start) / Float.ofNat n ≤ stop - start := by
    rw [le_iff_toRat isFinite_zero hs.width_finite, toRat_zero] at hdifference
    exact (isNearest_div hs.width_finite hcount (by linarith)).le (isNearest_self hs.width_finite)
      (div_le_self hdifference hone)
  exact ⟨hlower, isFinite_of_between isFinite_zero hs.width_finite hlower hupper⟩

theorem distance_mono {i j : ℕ} (hij : i ≤ j) (hj : j ≤ n) :
    0 ≤ (stop - start) / Float.ofNat n * Float.ofNat i ∧
      (stop - start) / Float.ofNat n * Float.ofNat i ≤ (stop - start) / Float.ofNat n * Float.ofNat j := by
  obtain ⟨hnonneg, hstep⟩ := hs.step_nonneg
  have hsmall := hs.small
  have hi := isFinite_ofNat (by omega : i ≤ 2 ^ 64)
  have hj := isFinite_ofNat (by omega : j ≤ 2 ^ 64)
  exact ⟨float_mul_nonneg hstep hi hnonneg (ofNat_nonneg i),
    float_mul_le_mul_left hstep hi hj hnonneg (ofNat_le_ofNat hij)⟩

theorem point_mono {i j : ℕ} (hij : i ≤ j) (hj : j ≤ n) : point start stop n i ≤ point start stop n j := by
  obtain ⟨hnonneg, hdistance⟩ := hs.distance_mono hij hj
  exact float_add_le_add_left hs.start_finite hnonneg hdistance

theorem start_le_point {i : ℕ} (hi : i ≤ n) : start ≤ point start stop n i :=
  float_le_add hs.start_finite (hs.distance_mono le_rfl hi).1

theorem point_zero_le : point start stop n 0 ≤ start := by
  have hproduct := isNearest_mul hs.step_nonneg.2 isFinite_zero
  rw [toRat_zero, mul_zero] at hproduct
  exact float_add_le hs.start_finite (isNearest_zeroFloat.le hproduct le_rfl) (hproduct.le isNearest_zeroFloat le_rfl)

end Stretch

namespace Histogram

section
variable {h : Histogram} {values : List Float} {n : ℕ} (hc : h.Counted values n) {start stop : Float}
  (hedges : h.edges = (List.range n).map (point start stop n) ++ [stop])
include hedges

theorem getElem?_of_points (i : ℕ) :
    h.edges[i]? = if i < n then some (point start stop n i) else if i = n then some stop else none := by
  rw [hedges, List.getElem?_append, List.length_map, List.length_range, List.getElem?_map]
  by_cases hi : i < n
  · rw [if_pos hi, if_pos hi, List.getElem?_range hi, Option.map_some]
  · rw [if_neg hi, if_neg hi]
    by_cases heq : i = n
    · rw [if_pos heq, heq, Nat.sub_self, List.getElem?_cons_zero]
    · rw [if_neg heq, List.getElem?_eq_none (by rw [List.length_singleton]; omega)]

theorem bin_of_points {i : ℕ} {b : Bin} (hb : h.bins[i]? = some b) :
    i < n ∧ b.lo = point start stop n i ∧ b.hi = if i + 1 < n then point start stop n (i + 1) else stop := by
  obtain ⟨hlo, hhi⟩ := edges_of_getElem?_bins hb
  rw [getElem?_of_points hedges] at hlo hhi
  by_cases hi : i + 1 < n
  · rw [if_pos (by omega), Option.some.injEq] at hlo
    rw [if_pos hi, Option.some.injEq] at hhi
    rw [if_pos hi]
    exact ⟨by omega, hlo.symm, hhi.symm⟩
  · rw [if_neg hi] at hhi
    by_cases heq : i + 1 = n
    · rw [if_pos heq, Option.some.injEq] at hhi
      rw [if_pos (by omega), Option.some.injEq] at hlo
      rw [if_neg hi]
      exact ⟨by omega, hlo.symm, hhi.symm⟩
    · rw [if_neg heq] at hhi
      cases hhi

include hc

theorem last_of_points {last : Bin} (hlast : last ∈ h.bins.getLast?) : last.lo = point start stop n (n - 1) := by
  have hlength := congrArg List.length (map_lo_bins hc.length_counts)
  rw [List.length_map, List.length_dropLast, hc.length_edges, Nat.add_sub_cancel] at hlength
  rw [List.getLast?_eq_getElem?, hlength] at hlast
  exact (bin_of_points hedges hlast).2.1

variable (hs : Stretch start stop n)
include hs

theorem first_le_start : ∀ first, h.edges.head? = some first → first ≤ start := by
  intro first hfirst
  rw [List.head?_eq_getElem?, getElem?_of_points hedges, if_pos hc.pos, Option.some.injEq] at hfirst
  rw [← hfirst]
  exact hs.point_zero_le

omit hc in
theorem start_le_lo {b : Bin} (hb : b ∈ h.bins) : start ≤ b.lo := by
  obtain ⟨i, hi⟩ := List.getElem?_of_mem hb
  obtain ⟨hlt, hlo, -⟩ := bin_of_points hedges hi
  rw [hlo]
  exact hs.start_le_point hlt.le

theorem le_last {b last : Bin} (hb : b ∈ h.bins) (hlast : last ∈ h.bins.getLast?) :
    b.lo ≤ last.lo ∧ (b.hi ≤ last.lo ∨ b.hi = stop) := by
  obtain ⟨i, hi⟩ := List.getElem?_of_mem hb
  obtain ⟨hlt, hlo, hhi⟩ := bin_of_points hedges hi
  have hmono := fun {j : ℕ} (hj : j ≤ n - 1) => hs.point_mono hj (Nat.sub_le n 1)
  rw [last_of_points hc hedges hlast, hlo, hhi]
  refine ⟨hmono (by omega), ?_⟩
  split
  · exact .inl (hmono (by omega))
  · exact .inr rfl

/-- Only the last step can be one down. -/
theorem ascending_of_last {last : Bin} (hlast : last ∈ h.bins.getLast?) (hend : last.lo ≤ stop) :
    Ascending h.edges := by
  rw [last_of_points hc hedges hlast] at hend
  rw [hedges, Ascending, List.pairwise_append, List.pairwise_map]
  refine ⟨?_, List.pairwise_singleton _ _, ?_⟩
  · refine List.pairwise_lt_range.imp_of_mem ?_
    intro i j _ hj hij
    exact hs.point_mono hij.le (List.mem_range.1 hj).le
  · intro x hx y hy
    obtain ⟨i, hi, rfl⟩ := List.mem_map.1 hx
    have hlt := List.mem_range.1 hi
    rw [List.mem_singleton.1 hy]
    exact float_le_trans (hs.point_mono (by omega) (Nat.sub_le n 1)) hend

end

end Histogram

theorem isFinite_nearestFloat (n : Int64) : (nearestFloat n).isFinite :=
  (isNearest_ofInt ((natAbs_toInt_le n).trans (by norm_num))).2

theorem nearestFloat_mono {m n : Int64} (h : m ≤ n) : nearestFloat m ≤ nearestFloat n :=
  (isNearest_ofInt ((natAbs_toInt_le m).trans (by norm_num))).1.le
    (isNearest_ofInt ((natAbs_toInt_le n).trans (by norm_num))).1 (by exact_mod_cast Int64.le_iff_toInt_le.1 h)

namespace Record

/-- The bounds of a spread are finite and hold all its values, of which the last one is found. -/
structure Spread.Spans (s : Spread) : Prop where
  least_finite : s.least.toFloat.isFinite
  greatest_finite : s.greatest.toFloat.isFinite
  least_le : ∀ v ∈ s.values, s.least.toFloat ≤ v
  greatest_mem : s.greatest.toFloat ∈ s.values
  le_greatest : ∀ v ∈ s.values, v ≤ s.greatest.toFloat
  distinct_le : s.distinct ≤ s.values.length

theorem spans_ints {ns : List Int64} {s : Spread} (h : spreadOfInts? ns = some s) : s.Spans := by
  obtain ⟨least, greatest, hleast, hgreatest, rfl⟩ := spreadOfInts?_eq_some h
  obtain ⟨hmin, hall⟩ := List.min?_eq_some_iff.1 hleast
  obtain ⟨hmax, hall'⟩ := List.max?_eq_some_iff.1 hgreatest
  constructor
  case least_finite => exact isFinite_nearestFloat least
  case greatest_finite => exact isFinite_nearestFloat greatest
  case least_le =>
    intro v hv
    obtain ⟨n, hn, rfl⟩ := List.mem_map.1 hv
    exact nearestFloat_mono (hall n hn)
  case greatest_mem => exact List.mem_map_of_mem hmax
  case le_greatest =>
    intro v hv
    obtain ⟨n, hn, rfl⟩ := List.mem_map.1 hv
    exact nearestFloat_mono (hall' n hn)
  case distinct_le =>
    have hle : distinctInts ns ≤ (ns.map Int64.toInt).length := Std.ExtTreeSet.size_ofList_le
    rw [List.length_map] at hle ⊢
    exact hle

theorem spans_floats {xs : List Float} (hfinite : ∀ x ∈ xs, x.isFinite) {s : Spread} (h : spreadOfFloats? xs = some s) :
    s.Spans := by
  obtain ⟨hne, rfl⟩ := spreadOfFloats?_eq_some h
  obtain ⟨hmin, hall⟩ := leastFloat_spec hfinite hne
  obtain ⟨hmax, hall'⟩ := greatestFloat_spec hfinite hne
  have hnumber := fun {x : Float} hx => isNaN_of_isFinite (hfinite x hx)
  constructor
  case least_finite => exact hfinite _ hmin
  case greatest_finite => exact hfinite _ hmax
  case least_le => exact fun v hv => (le_iff_place (hnumber hmin) (hnumber hv)).2 (hall v hv)
  case greatest_mem => exact hmax
  case le_greatest => exact fun v hv => (le_iff_place (hnumber hv) (hnumber hmax)).2 (hall' v hv)
  case distinct_le =>
    have hle : distinctFloats xs ≤ (xs.map fun x => Threshold.mk (if x == 0 then 0 else x)).length :=
      Std.ExtTreeSet.size_ofList_le
    rwa [List.length_map] at hle

theorem spans_of_spread? {values : Typed} (hfinite : values.Finite) {s : Spread} (h : values.spread? = some s) :
    s.Spans := by
  cases values with
  | int ns => exact spans_ints h
  | float xs => exact spans_floats hfinite h
  | text texts => cases h

structure Describes (r : Record) (s : Spread) (maxBins : ℕ) : Prop where
  spans : s.Spans
  numeric : r.type ≠ .string
  count_eq : r.count = s.values.length
  least_eq : r.least = some s.least
  greatest_eq : r.greatest = some s.greatest
  histogram_eq : r.histogram = Histogram.equalWidth s.values s.least.toFloat s.greatest.toFloat s.distinct maxBins

theorem exists_describes {maxBins : ℕ} {declared : Option ValueType} {c : Column}
    (hnumeric : (ofColumn maxBins declared c).type ≠ .string) (hpos : 0 < (ofColumn maxBins declared c).count) :
    ∃ s : Spread, s.values = (classify (declared.or c.declared) c.values).values.numbers ∧
      (ofColumn maxBins declared c).Describes s maxBins := by
  have hcount := count_eq_length hnumeric
  rw [hcount] at hpos
  obtain ⟨s, hs, hvalues⟩ := Typed.exists_spread? (List.length_pos_iff.1 hpos)
  refine ⟨s, hvalues, ?_⟩
  constructor
  case spans => exact spans_of_spread? (Classified.finite_typed c.values _) hs
  case numeric => exact hnumeric
  case count_eq => exact hcount.trans (congrArg List.length hvalues.symm)
  all_goals
    rw [ofColumn, ofClassified_of_spread hs]
    rfl

section
variable {r : Record} {s : Spread} {maxBins : ℕ} (hr : r.Describes s maxBins)
include hr

theorem Describes.count_pos : 0 < r.count := by
  rw [hr.count_eq]
  exact List.length_pos_of_mem hr.spans.greatest_mem

theorem Describes.least_le_greatest : s.least.toFloat ≤ s.greatest.toFloat := hr.spans.least_le _ hr.spans.greatest_mem

variable (hbins : r.histogram.isEmpty = false) (hsmall : r.count ≤ 2 ^ 53)
  (hwidth : (s.greatest.toFloat - s.least.toFloat).isFinite)
include hbins hsmall hwidth

theorem Describes.exists_points : ∃ n, r.histogram.Counted s.values n ∧
    Stretch s.least.toFloat s.greatest.toFloat n ∧
    r.histogram.edges = (List.range n).map (point s.least.toFloat s.greatest.toFloat n) ++ [s.greatest.toFloat] := by
  have hdistinct := hr.spans.distinct_le
  rw [← hr.count_eq] at hdistinct
  have hempty := hbins
  rw [hr.histogram_eq] at hempty
  obtain ⟨htwo, hc⟩ := Histogram.counted_equalWidth hempty
  rw [← hr.histogram_eq] at hc
  refine ⟨_, hc, ⟨hr.spans.least_finite, hr.spans.greatest_finite, hr.least_le_greatest, hwidth, hc.pos, by omega⟩, ?_⟩
  rw [hr.histogram_eq, Histogram.equalWidth_of_lt htwo]
  exact evenlySpaced_eq _ _ hc.pos

theorem Describes.first_le : ∀ first, r.histogram.edges.head? = some first → ∀ v ∈ s.values, first ≤ v := by
  obtain ⟨n, hc, hs, hedges⟩ := hr.exists_points hbins hsmall hwidth
  intro first hfirst v hv
  exact float_le_trans (Histogram.first_le_start hc hedges hs first hfirst) (hr.spans.least_le v hv)

theorem Describes.sum_counts : (r.histogram.bins.map Bin.count).sum = r.count := by
  obtain ⟨n, hc, -⟩ := hr.exists_points hbins hsmall hwidth
  rw [hr.count_eq]
  exact hc.sum_counts (hr.first_le hbins hsmall hwidth)

theorem Describes.interpolate_least :
    r.interpolate .ge s.least.toFloat = 1 ∧ r.interpolate .lt s.least.toFloat = 0 := by
  obtain ⟨n, hc, hs, hedges⟩ := hr.exists_points hbins hsmall hwidth
  have hstarts : ∀ b ∈ r.histogram.bins, s.least.toFloat ≤ b.lo := fun b hb => Histogram.start_le_lo hedges hs hb
  have hpos := ofNat_pos hr.count_pos
  obtain ⟨hlt, hge⟩ := interpolate_of_undivided hr.count_pos hsmall (fun b hb hnot => absurd (hstarts b hb) hnot)
    (hr.sum_counts hbins hsmall hwidth) (Histogram.startedBelow_of_forall_le hstarts)
  rw [hlt .lt (by decide), hge .ge (by decide), Nat.sub_zero]
  exact ⟨float_div_self (isFinite_ofNat (by omega)) hpos, float_zero_div hpos⟩

/-- Where the last bin starts below the greatest value, all bins do and end with it or before. -/
theorem Describes.interpolate_greatest (hlast : ∀ last ∈ r.histogram.bins.getLast?, last.lo < s.greatest.toFloat) :
    r.interpolate .le s.greatest.toFloat = 1 ∧ r.interpolate .gt s.greatest.toFloat = 0 := by
  obtain ⟨n, hc, hs, hedges⟩ := hr.exists_points hbins hsmall hwidth
  have hnumber := isNaN_of_isFinite hs.stop_finite
  have hends : ∀ b ∈ r.histogram.bins, b.lo < s.greatest.toFloat ∧ b.hi ≤ s.greatest.toFloat := by
    intro b hb
    have hmem := List.getLast?_eq_some_getLast (List.ne_nil_of_mem hb)
    obtain ⟨hlo, hhi⟩ := Histogram.le_last hc hedges hs hb hmem
    have hlt := hlast _ hmem
    refine ⟨float_lt_of_le_of_lt hlo hlt, ?_⟩
    rcases hhi with hle | heq
    · exact float_le_trans hle (float_le_of_lt hlt)
    · rw [heq]
      exact float_le_refl hnumber
  have hsum := hr.sum_counts hbins hsmall hwidth
  have hbelow := Histogram.startedBelow_of_forall_not_le fun b hb => float_not_le_of_lt (hends b hb).1
  have hpos := ofNat_pos hr.count_pos
  obtain ⟨hle, hgt⟩ := interpolate_of_undivided hr.count_pos hsmall (fun b hb _ => (hends b hb).2) hsum
    (hbelow.trans hsum)
  rw [hle .le (by decide), hgt .gt (by decide), Nat.sub_self]
  exact ⟨float_div_self (isFinite_ofNat (by omega)) hpos, float_zero_div hpos⟩

/-- A last bin without a width keeps its values from the share below its end. -/
theorem Describes.interpolate_repeated {last : Bin} (hmem : last ∈ r.histogram.bins.getLast?)
    (hle : last.lo ≤ s.greatest.toFloat) (hge : s.greatest.toFloat ≤ last.lo) :
    let k := Histogram.valuesBelow s.values s.greatest.toFloat
    k < r.count ∧ r.interpolate .le s.greatest.toFloat = Float.ofNat k / Float.ofNat r.count ∧
      r.interpolate .gt s.greatest.toFloat = Float.ofNat (r.count - k) / Float.ofNat r.count := by
  intro k
  obtain ⟨n, hc, hs, hedges⟩ := hr.exists_points hbins hsmall hwidth
  have hfirst := hr.first_le hbins hsmall hwidth
  have hascending := Histogram.ascending_of_last hc hedges hs hmem hle
  have hlo : last.lo ∈ r.histogram.edges.dropLast := by
    rw [← Histogram.map_lo_bins hc.length_counts]
    exact List.mem_map_of_mem (List.mem_of_getLast? hmem)
  obtain ⟨hbelow, hfrom⟩ := interpolate_at_edge hr.count_pos hsmall hc hr.count_eq hfirst hascending hlo hle hge
  refine ⟨?_, hbelow .le (by decide), hfrom .gt (by decide)⟩
  -- the greatest value is not below itself
  rw [hr.count_eq]
  refine (Histogram.valuesBelow_le s.values _).lt_of_ne ?_
  intro hall
  have hlt := of_decide_eq_true (List.countP_eq_length.1 hall _ hr.spans.greatest_mem)
  exact float_not_lt_of_le (float_le_refl (isNaN_of_isFinite hs.stop_finite)) hlt

end

section
variable {r : Record} {s : Spread} {maxBins : ℕ} (hr : r.Describes s maxBins) (hsmall : r.count ≤ 2 ^ 53)
  (hwidth : (s.greatest.toFloat - s.least.toFloat).isFinite) {v : Value}
include hr hsmall hwidth

theorem Describes.estimate_least (hv : v.number? = some s.least.toFloat) :
    r.estimate .ge v = some 1 ∧ r.estimate .lt v = some 0 := by
  have hcount := hr.count_pos.ne'
  cases hbins : r.histogram.isEmpty with
  | true =>
    have hself := float_le_refl (isNaN_of_isFinite hr.spans.least_finite)
    rw [estimate_of_isEmpty hcount hr.numeric (by decide) hv hbins hr.least_eq,
      estimate_of_isEmpty hcount hr.numeric (by decide) hv hbins hr.least_eq, Comparison.holds, Comparison.holds,
      decide_eq_true hself, decide_eq_false (float_not_lt_of_le hself)]
    exact ⟨rfl, rfl⟩
  | false =>
    obtain ⟨hge, hlt⟩ := hr.interpolate_least hbins hsmall hwidth
    rw [estimate_eq_interpolate hcount hr.numeric (by decide) hv hbins,
      estimate_eq_interpolate hcount hr.numeric (by decide) hv hbins, hge, hlt]
    exact ⟨rfl, rfl⟩

variable (hv : v.number? = some s.greatest.toFloat)
include hv

theorem Describes.estimate_greatest (hlast : ∀ last ∈ r.histogram.bins.getLast?, last.lo < s.greatest.toFloat) :
    r.estimate .le v = some 1 ∧ r.estimate .gt v = some 0 := by
  have hcount := hr.count_pos.ne'
  cases hbins : r.histogram.isEmpty with
  | true =>
    have hup := hr.least_le_greatest
    rw [estimate_of_isEmpty hcount hr.numeric (by decide) hv hbins hr.least_eq,
      estimate_of_isEmpty hcount hr.numeric (by decide) hv hbins hr.least_eq, Comparison.holds, Comparison.holds,
      decide_eq_true hup, decide_eq_false (float_not_lt_of_le hup)]
    exact ⟨rfl, rfl⟩
  | false =>
    obtain ⟨hle, hgt⟩ := hr.interpolate_greatest hbins hsmall hwidth hlast
    rw [estimate_eq_interpolate hcount hr.numeric (by decide) hv hbins,
      estimate_eq_interpolate hcount hr.numeric (by decide) hv hbins, hle, hgt]
    exact ⟨rfl, rfl⟩

theorem Describes.estimate_repeated {last : Bin} (hmem : last ∈ r.histogram.bins.getLast?)
    (hlo : last.lo ≤ s.greatest.toFloat) (hhi : s.greatest.toFloat ≤ last.lo) :
    let k := Histogram.valuesBelow s.values s.greatest.toFloat
    k < r.count ∧ r.estimate .le v = some (Float.ofNat k / Float.ofNat r.count) ∧
      r.estimate .gt v = some (Float.ofNat (r.count - k) / Float.ofNat r.count) := by
  intro k
  have hcount := hr.count_pos.ne'
  cases hbins : r.histogram.isEmpty with
  | true =>
    rw [Histogram.bins, List.isEmpty_iff.1 hbins, List.zipWith_nil_right] at hmem
    cases hmem
  | false =>
    obtain ⟨hk, hle, hgt⟩ := hr.interpolate_repeated hbins hsmall hwidth hmem hlo hhi
    rw [estimate_eq_interpolate hcount hr.numeric (by decide) hv hbins,
      estimate_eq_interpolate hcount hr.numeric (by decide) hv hbins, hle, hgt]
    exact ⟨hk, rfl, rfl⟩

end

/-- At the least value the estimates of `<` and `>=` are exact. At the greatest one those of `<=` and `>` are exact, if
    the last bin starts below it. If that bin starts at the greatest value and has no width then only the values below
    count as being up to it. -/
theorem estimate_at_bounds {maxBins : ℕ} {declared : Option ValueType} {c : Column} :
    let values := (classify (declared.or c.declared) c.values).values.numbers
    let r := ofColumn maxBins declared c
    r.type ≠ .string → 0 < r.count → r.count ≤ 2 ^ 53 →
      ∃ least greatest, r.least = some least ∧ r.greatest = some greatest ∧
        ((greatest.toFloat - least.toFloat).isFinite →
          (∀ v : Value, v.number? = some least.toFloat → r.estimate .ge v = some 1 ∧ r.estimate .lt v = some 0) ∧
            ∀ v : Value, v.number? = some greatest.toFloat →
              ((∀ last ∈ r.histogram.bins.getLast?, last.lo < greatest.toFloat) →
                r.estimate .le v = some 1 ∧ r.estimate .gt v = some 0) ∧
              ∀ last ∈ r.histogram.bins.getLast?, last.lo ≤ greatest.toFloat → greatest.toFloat ≤ last.lo →
                let k := Histogram.valuesBelow values greatest.toFloat
                k < r.count ∧ r.estimate .le v = some (Float.ofNat k / Float.ofNat r.count) ∧
                  r.estimate .gt v = some (Float.ofNat (r.count - k) / Float.ofNat r.count)) := by
  intro values r hnumeric hpos hsmall
  obtain ⟨s, hvalues, hr⟩ : ∃ s : Spread, s.values = values ∧ r.Describes s maxBins := exists_describes hnumeric hpos
  refine ⟨s.least, s.greatest, hr.least_eq, hr.greatest_eq, ?_⟩
  intro hwidth
  refine ⟨fun v hv => hr.estimate_least hsmall hwidth hv, ?_⟩
  intro v hv
  refine ⟨hr.estimate_greatest hsmall hwidth hv, ?_⟩
  intro last hmem hlo hhi
  rw [← hvalues]
  exact hr.estimate_repeated hsmall hwidth hv hmem hlo hhi

/-- Four bins of which the last one starts below the greatest integer, and three where the last one has no width. -/
theorem estimate_at_bounds_integers :
    let c : Column := ⟨"n", none, [some (.int 1), none, some (.int 2), some (.int 3), some (.int 4)]⟩
    let d : Column :=
      ⟨"n", none, [some (.int 9007199254740992), some (.int 9007199254740993), some (.int 9007199254740994)]⟩
    let r := ofColumn 10 none c
    let s := ofColumn 10 none d
    (r.type ≠ .string ∧ r.count = 4 ∧ r.least = some (.int 1) ∧ r.greatest = some (.int 4) ∧
        r.histogram.bins.getLast? = some ⟨3.25, 4, 1⟩ ∧ (3.25 : Float) < 4) ∧
      r.estimate .ge (.int 1) = some 1 ∧ r.estimate .lt (.int 1) = some 0 ∧
      r.estimate .le (.int 4) = some 1 ∧ r.estimate .gt (.int 4) = some 0 ∧
      (s.type ≠ .string ∧ s.count = 3 ∧ s.least = some (.int 9007199254740992) ∧
        s.greatest = some (.int 9007199254740994) ∧
        s.histogram.bins.getLast? = some ⟨9007199254740994, 9007199254740994, 1⟩) ∧
      s.estimate .ge (.int 9007199254740992) = some 1 ∧ s.estimate .lt (.int 9007199254740992) = some 0 ∧
      s.estimate .le (.int 9007199254740994) = some (2 / 3) ∧ s.estimate .gt (.int 9007199254740994) = some (1 / 3) := by
  intro c d r s
  have hr : r.type ≠ .string ∧ r.count = 4 ∧ r.least = some (.int 1) ∧ r.greatest = some (.int 4) ∧
      r.histogram.bins.getLast? = some ⟨3.25, 4, 1⟩ ∧ (3.25 : Float) < 4 := by decide +kernel
  have hs : s.type ≠ .string ∧ s.count = 3 ∧ s.least = some (.int 9007199254740992) ∧
      s.greatest = some (.int 9007199254740994) ∧
      s.histogram.bins.getLast? = some ⟨9007199254740994, 9007199254740994, 1⟩ := by decide +kernel
  have ⟨hnumeric, hcount, hleast, hgreatest, hlast, _⟩ := hr
  have ⟨hnumeric', hcount', hleast', hgreatest', hlast'⟩ := hs
  have hstarts : (3.25 : Float) < (Bound.int 4).toFloat := by decide +kernel
  have hends : (9007199254740994 : Float) = (Bound.int 9007199254740994).toFloat := by decide +kernel
  have hself : (9007199254740994 : Float) ≤ 9007199254740994 := by decide +kernel
  have hbelow : Histogram.valuesBelow (classify (none.or d.declared) d.values).values.numbers 9007199254740994 = 2 := by
    decide +kernel
  refine ⟨hr, ?_⟩
  obtain ⟨low, high, hlow, hhigh, hexact⟩ :=
    estimate_at_bounds hnumeric (hcount ▸ by norm_num) (hcount.le.trans (by norm_num))
  obtain rfl : low = .int 1 := Option.some.inj (hlow.symm.trans hleast)
  obtain rfl : high = .int 4 := Option.some.inj (hhigh.symm.trans hgreatest)
  obtain ⟨hfrom, hto⟩ := hexact (by decide +kernel)
  obtain ⟨hge, hlt⟩ := hfrom (.int 1) rfl
  obtain ⟨hle, hgt⟩ := (hto (.int 4) rfl).1 fun last hmem => by
    rw [hlast, Option.mem_some_iff] at hmem
    rwa [← hmem]
  obtain ⟨low, high, hlow, hhigh, hexact⟩ :=
    estimate_at_bounds hnumeric' (hcount' ▸ by norm_num) (hcount'.le.trans (by norm_num))
  obtain rfl : low = .int 9007199254740992 := Option.some.inj (hlow.symm.trans hleast')
  obtain rfl : high = .int 9007199254740994 := Option.some.inj (hhigh.symm.trans hgreatest')
  obtain ⟨hfrom, hto⟩ := hexact (by decide +kernel)
  obtain ⟨hge', hlt'⟩ := hfrom (.int 9007199254740992) rfl
  obtain ⟨-, hle', hgt'⟩ := (hto (.int 9007199254740994) rfl).2 _ hlast' (hends ▸ hself) (hends ▸ hself)
  rw [← hends, hbelow, hcount'] at hle' hgt'
  exact ⟨hge, hlt, hle, hgt, hs, hge', hlt', hle', hgt'⟩

/-- Of three integers the greatest one starts a bin of no width: it is estimated that a third of them is above it. Among
    the least floats the step is rounded up, so that the last bin starts beyond the greatest of ten; it is estimated that
    one in twenty is above that one. -/
theorem estimate_at_greatest_missed :
    let r := ofColumn 10 none
      ⟨"n", none, [some (.int 9007199254740992), some (.int 9007199254740993), some (.int 9007199254740994)]⟩
    let unit : Float := 5e-324
    let s := ofColumn 10 none ⟨"x", none, [0, 1, 2, 3, 4, 5, 6, 7, 8, 15].map fun k => some (.float (unit * k))⟩
    (r.least = some (.int 9007199254740992) ∧ r.greatest = some (.int 9007199254740994) ∧
      (nearestFloat 9007199254740994 - nearestFloat 9007199254740992).isFinite ∧
      r.estimate .le (.int 9007199254740994) = some (2 / 3) ∧ r.estimate .le (.int 9007199254740994) ≠ some 1 ∧
      r.estimate .gt (.int 9007199254740994) = some (1 / 3) ∧ r.estimate .gt (.int 9007199254740994) ≠ some 0) ∧
    s.least = some (.float 0) ∧ s.greatest = some (.float (unit * 15)) ∧ (unit * 15 - 0).isFinite ∧
      s.histogram.bins.getLast? = some ⟨unit * 18, unit * 15, 0⟩ ∧
      s.estimate .le (.float (unit * 15)) = some 0.95 ∧ s.estimate .le (.float (unit * 15)) ≠ some 1 ∧
      s.estimate .gt (.float (unit * 15)) = some 0.05 ∧ s.estimate .gt (.float (unit * 15)) ≠ some 0 := by
  decide +kernel

end Record
end GraphProfile
