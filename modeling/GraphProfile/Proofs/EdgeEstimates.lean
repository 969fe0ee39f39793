import GraphProfile.Proofs.Interpolation
import GraphProfile.Proofs.RangeMaps

set_option autoImplicit false

/-!
# Range estimates at the edges

At an edge no bin is divided: with ascending edges each of them lies below the target or from it on, bins of no width
and repeated edges included. Then the sum over the bins is one of whole counts, and it is exact as long as these are
small enough to be floats. So at every key of the range maps the estimate is what the maps say, but of the rows that
have a value.
-/
namespace GraphProfile

namespace Histogram
open Decimal

/-- No bin has the target inside. -/
def Undivided (t : Float) (bins : List Bin) : Prop := ∀ b ∈ bins, ¬t ≤ b.lo → b.hi ≤ t

/-- What the bins that start below the target count. -/
def startedBelow (t : Float) (bins : List Bin) : ℕ := ((bins.filter fun b => ¬t ≤ b.lo).map Bin.count).sum

def startedFrom (t : Float) (bins : List Bin) : ℕ := ((bins.filter fun b => t ≤ b.lo).map Bin.count).sum

theorem startedBelow_add_startedFrom (t : Float) (bins : List Bin) :
    startedBelow t bins + startedFrom t bins = (bins.map Bin.count).sum := by
  induction bins with
  | nil => rfl
  | cons b bins ih =>
    rw [startedBelow, startedFrom] at ih ⊢
    by_cases hb : t ≤ b.lo
    · rw [List.filter_cons_of_neg (by simpa using hb), List.filter_cons_of_pos (by simpa using hb), List.map_cons,
        List.map_cons, List.sum_cons, List.sum_cons, ← ih]
      omega
    · rw [List.filter_cons_of_pos (by simpa using hb), List.filter_cons_of_neg (by simpa using hb), List.map_cons,
        List.map_cons, List.sum_cons, List.sum_cons, ← ih]
      omega

theorem startedBelow_of_forall_le {t : Float} {bins : List Bin} (h : ∀ b ∈ bins, t ≤ b.lo) :
    startedBelow t bins = 0 := by
  rw [startedBelow, List.filter_eq_nil_iff.2 (by simpa using h), List.map_nil, List.sum_nil]

theorem startedBelow_of_forall_not_le {t : Float} {bins : List Bin} (h : ∀ b ∈ bins, ¬t ≤ b.lo) :
    startedBelow t bins = (bins.map Bin.count).sum := by
  rw [startedBelow, List.filter_eq_self.2 (by simpa using h)]

theorem startedBelow_append (t : Float) (before after : List Bin) :
    startedBelow t (before ++ after) = startedBelow t before + startedBelow t after := by
  rw [startedBelow, List.filter_append, List.map_append, List.sum_append]
  rfl

/-- Of bins that start one after the other those below an edge are the ones before the first that starts at it. -/
theorem exists_first_from {bins : List Bin} (hstarts : (bins.map Bin.lo).Pairwise (· ≤ ·)) {d : Bin} (hd : d ∈ bins)
    {t : Float} (hdt : d.lo ≤ t) (htd : t ≤ d.lo) :
    ∃ before b after, bins = before ++ b :: after ∧ b.lo ≤ t ∧ t ≤ b.lo ∧
      startedBelow t bins = (before.map Bin.count).sum := by
  have hsome : (bins.find? fun b => t ≤ b.lo).isSome := List.find?_isSome.2 ⟨d, hd, decide_eq_true htd⟩
  obtain ⟨b, hb⟩ := Option.isSome_iff_exists.1 hsome
  obtain ⟨htb, before, after, rfl, hbefore⟩ := List.find?_eq_some_iff_append.1 hb
  have htb : t ≤ b.lo := of_decide_eq_true htb
  rw [List.map_append, List.map_cons] at hstarts
  obtain ⟨hfollowing, -⟩ := List.pairwise_cons.1 (List.pairwise_append.1 hstarts).2.1
  have hbt : b.lo ≤ t := by
    rcases List.mem_append.1 hd with hmem | hmem
    · exact absurd htd (by simpa using hbefore d hmem)
    · rcases List.mem_cons.1 hmem with rfl | hmem
      · exact hdt
      · exact float_le_trans (hfollowing d.lo (List.mem_map_of_mem hmem)) hdt
  have hafter : ∀ x ∈ b :: after, t ≤ x.lo := by
    intro x hx
    rcases List.mem_cons.1 hx with rfl | hmem
    · exact htb
    · exact float_le_trans htb (hfollowing x.lo (List.mem_map_of_mem hmem))
  refine ⟨before, b, after, rfl, hbt, htb, ?_⟩
  rw [startedBelow_append, startedBelow_of_forall_le hafter, Nat.add_zero, startedBelow_of_forall_not_le]
  simpa using hbefore

/-- The histogram has so many bins, in which the values are counted. -/
structure Counted (h : Histogram) (values : List Float) (n : ℕ) : Prop where
  pos : 0 < n
  length_edges : h.edges.length = n + 1
  counts_eq : h.counts = (countBins h.edges.toArray n values).toList

theorem counted_equalWidth {values : List Float} {least greatest : Float} {distinct maxBins : ℕ}
    (h : (equalWidth values least greatest distinct maxBins).isEmpty = false) :
    1 < min maxBins distinct ∧
      (equalWidth values least greatest distinct maxBins).Counted values (min maxBins distinct) := by
  have htwo : 1 < min maxBins distinct := by
    by_contra hone
    rw [equalWidth_of_le (not_lt.1 hone)] at h
    cases h
  rw [equalWidth_of_lt htwo]
  exact ⟨htwo, by omega, length_evenlySpaced _ _ _, rfl⟩

section
variable {h : Histogram} {values : List Float} {n : ℕ} (hc : h.Counted values n)
include hc

theorem Counted.length_counts : h.edges.length = h.counts.length + 1 := by
  rw [hc.length_edges, hc.counts_eq, Array.length_toList, size_countBins]

theorem Counted.isNaN_of_mem (hascending : Ascending h.edges) {e : Float} (he : e ∈ h.edges) : e.isNaN = false := by
  obtain ⟨i, hi⟩ := List.getElem?_of_mem he
  have hpos := hc.pos
  have hlength := hc.length_edges
  exact hascending.isNaN_eq_false (by omega) hi

theorem Counted.getElem?_of_dropLast {before after : List Float} {e : Float}
    (hedges : h.edges.dropLast = before ++ e :: after) : before.length < n ∧ h.edges[before.length]? = some e := by
  have hlength := congrArg List.length hedges
  have hget : h.edges.dropLast[before.length]? = some e := by
    rw [hedges, List.getElem?_append_right le_rfl, Nat.sub_self, List.getElem?_cons_zero]
  rw [List.length_dropLast, hc.length_edges, List.length_append, List.length_cons] at hlength
  rw [List.getElem?_dropLast, if_pos (by rw [hc.length_edges]; omega)] at hget
  exact ⟨by omega, hget⟩

theorem Counted.split {before after : List Bin} {b : Bin} (hbins : h.bins = before ++ b :: after) :
    before.length < n ∧ h.edges[before.length]? = some b.lo ∧ h.counts.take before.length = before.map Bin.count := by
  have hlo := map_lo_bins hc.length_counts
  rw [hbins, List.map_append, List.map_cons] at hlo
  have hedge := hc.getElem?_of_dropLast hlo.symm
  rw [List.length_map] at hedge
  refine ⟨hedge.1, hedge.2, ?_⟩
  rw [← map_count_bins hc.length_counts, hbins, List.map_append, ← List.length_map (f := Bin.count), List.take_left]

variable (hfirst : ∀ first, h.edges.head? = some first → ∀ v ∈ values, first ≤ v)
include hfirst

theorem Counted.sum_counts : (h.bins.map Bin.count).sum = values.length := by
  rw [map_count_bins hc.length_counts, hc.counts_eq]
  exact sum_eq_length hc.length_edges hc.pos hfirst

variable (hascending : Ascending h.edges)
include hascending

theorem Counted.startedBelow_eq {e t : Float} (he : e ∈ h.edges.dropLast) (het : e ≤ t) (hte : t ≤ e) :
    startedBelow t h.bins = valuesBelow values t := by
  have hstarts := hascending.sublist (List.dropLast_sublist h.edges)
  rw [← map_lo_bins hc.length_counts] at he hstarts
  obtain ⟨d, hd, rfl⟩ := List.mem_map.1 he
  obtain ⟨before, b, after, hbins, hbt, htb, hbelow⟩ := exists_first_from hstarts hd het hte
  obtain ⟨hlt, hedge, hcounts⟩ := hc.split hbins
  have hsum := sum_take_eq_valuesBelow hascending hc.length_edges hc.pos hfirst hlt hedge
  rw [← hc.counts_eq, hcounts] at hsum
  rw [hbelow, hsum]
  exact le_antisymm (valuesBelow_mono values hbt) (valuesBelow_mono values htb)

end

theorem edges_of_getElem?_bins {h : Histogram} {i : ℕ} {b : Bin} (hb : h.bins[i]? = some b) :
    h.edges[i]? = some b.lo ∧ h.edges[i + 1]? = some b.hi := by
  rw [bins, List.getElem?_zipWith_eq_some] at hb
  obtain ⟨edge, count, hedge, -, rfl⟩ := hb
  rw [List.getElem?_zip_eq_some, List.getElem?_tail] at hedge
  exact hedge

theorem undivided_of_mem {h : Histogram} (hascending : Ascending h.edges) {e t : Float} (he : e ∈ h.edges) (het : e ≤ t)
    (hte : t ≤ e) : Undivided t h.bins := by
  intro b hb hlow
  obtain ⟨i, hi⟩ := List.getElem?_of_mem hb
  obtain ⟨j, hj⟩ := List.getElem?_of_mem he
  obtain ⟨hlo, hhi⟩ := edges_of_getElem?_bins hi
  rcases lt_trichotomy (i + 1) j with hlt | heq | hlt
  · exact float_le_trans (hascending.le hlt hhi hj) het
  · rw [heq, hj, Option.some.injEq] at hhi
    rwa [← hhi]
  · -- the bin starts at the edge or after it
    have hle : e ≤ b.lo := by
      rcases (Nat.le_of_lt_succ hlt).eq_or_lt with heq | hlt
      · rw [← heq, hj, Option.some.injEq] at hlo
        rw [← hlo]
        exact float_le_refl (isNaN_of_le het).1
      · exact hascending.le hlt hj hlo
    exact absurd (float_le_trans hte hle) hlow

theorem Counted.lt_fillRanges {h : Histogram} {values : List Float} {n : ℕ} (hc : h.Counted values n)
    (hfirst : ∀ first, h.edges.head? = some first → ∀ v ∈ values, first ≤ v) (hascending : Ascending h.edges)
    (distinct : ℕ) {rows : ℕ} (hrows : 0 < rows) :
    let filled := (Selectivity.equality distinct).fillRanges h rows
    (∀ t : Threshold, t.value ∉ h.edges.dropLast → filled.lt[t]? = none) ∧
      ∀ e ∈ h.edges.dropLast, filled.lt[(⟨e⟩ : Threshold)]? =
        some (Float.ofNat (valuesBelow values e) / Float.ofNat rows) := by
  intro filled
  obtain ⟨hnone, hsome⟩ := holds_fillRanges hc.length_counts distinct rows
  refine ⟨fun t ht => (hnone t ht).1, ?_⟩
  intro e he
  obtain ⟨before, after, hsplit, hafter⟩ := exists_last_of_mem he
  obtain ⟨hlt, hedge⟩ := hc.getElem?_of_dropLast hsplit
  have hsum := sum_take_eq_valuesBelow hascending hc.length_edges hc.pos hfirst hlt hedge
  rw [(hsome before e after hsplit hafter).1, hc.counts_eq, Option.map_some, Selectivity.Shares.ofCounts,
    Selectivity.ratio, if_pos hrows, hsum]

end Histogram

namespace Record
open Decimal Histogram

/-- Terms that take a count or leave it are added up as counts. -/
theorem foldl_counts {bins : List Bin} {part : Bin → Float} {p : Bin → Bool}
    (hpart : ∀ b ∈ bins, part b = if p b then 1 else 0) {s : ℕ} (hsum : s + (bins.map Bin.count).sum ≤ 2 ^ 53) :
    bins.foldl (fun sum b => sum + Float.ofNat b.count * clamp (part b)) (Float.ofNat s) =
      Float.ofNat (s + ((bins.filter p).map Bin.count).sum) := by
  -- the sum so far is a whole number that is small enough to be a float, and so is the next one
  induction bins generalizing s with
  | nil => rfl
  | cons b bins ih =>
    have hrest : ∀ d ∈ bins, part d = if p d then 1 else 0 := fun d hd => hpart d (List.mem_cons_of_mem b hd)
    rw [List.map_cons, List.sum_cons] at hsum
    rw [List.foldl_cons, hpart b List.mem_cons_self]
    by_cases hb : p b
    · rw [if_pos hb, clamp_of_isShare isShare_one, ofNat_mul_one (by omega), ofNat_add_ofNat (by omega),
        ih hrest (by omega), List.filter_cons_of_pos hb, List.map_cons, List.sum_cons, Nat.add_assoc]
    · have hzero : Float.ofNat s + 0 = Float.ofNat s := ofNat_add_ofNat (by omega : s + 0 ≤ 2 ^ 53)
      rw [if_neg hb, clamp_of_isShare isShare_zero, ofNat_mul_zero (by omega), hzero, ih hrest (by omega),
        List.filter_cons_of_neg hb]

theorem below_of_undivided {t : Float} {b : Bin} (h : ¬t ≤ b.lo → b.hi ≤ t) :
    below t b = (if ¬t ≤ b.lo then 1 else 0) ∧ 1 - below t b = if t ≤ b.lo then 1 else 0 := by
  rw [below]
  by_cases hlow : t ≤ b.lo
  · rw [if_pos hlow, if_neg (not_not.2 hlow), if_pos hlow]
    exact ⟨rfl, by decide +kernel⟩
  · rw [if_neg hlow, if_pos (h hlow), if_pos hlow, if_neg hlow]
    exact ⟨rfl, by decide +kernel⟩

section
variable {r : Record} (hcount : 0 < r.count) (hsmall : r.count ≤ 2 ^ 53)
include hcount hsmall

theorem interpolate_of_undivided {t : Float} (h : Undivided t r.histogram.bins)
    (hsum : (r.histogram.bins.map Bin.count).sum = r.count) {k : ℕ} (hk : startedBelow t r.histogram.bins = k) :
    (∀ op ∈ [Comparison.lt, .le], r.interpolate op t = Float.ofNat k / Float.ofNat r.count) ∧
      ∀ op ∈ [Comparison.gt, .ge], r.interpolate op t = Float.ofNat (r.count - k) / Float.ofNat r.count := by
  have hsplit := startedBelow_add_startedFrom t r.histogram.bins
  have hfrom : startedFrom t r.histogram.bins = r.count - k := by omega
  have hexact : ∀ (part : Bin → Float) (p : Bin → Bool), (∀ b ∈ r.histogram.bins, part b = if p b then 1 else 0) →
      r.histogram.bins.foldl (fun sum b => sum + Float.ofNat b.count * clamp (part b)) 0 =
        Float.ofNat ((r.histogram.bins.filter p).map Bin.count).sum := by
    intro part p hpart
    have hfold := foldl_counts hpart (s := 0) (by omega)
    rwa [Nat.zero_add] at hfold
  have hquotient : ∀ n ≤ r.count,
      clamp (Float.ofNat n / Float.ofNat r.count) = Float.ofNat n / Float.ofNat r.count := by
    intro n hn
    have hfinite : (Float.ofNat r.count).isFinite := isFinite_ofNat (by omega)
    exact clamp_of_isShare (isShare_div hfinite (ofNat_pos hcount) (ofNat_nonneg n) (ofNat_le_ofNat hn))
  have hbelow := hexact (below t) (fun b => ¬t ≤ b.lo) fun b hb => by
    simpa using (below_of_undivided (h b hb)).1
  have habove := hexact (fun b => 1 - below t b) (fun b => t ≤ b.lo) fun b hb => by
    simpa using (below_of_undivided (h b hb)).2
  refine ⟨?_, ?_⟩
  · intro op hop
    have hmatching : matching op t r.histogram.bins = Float.ofNat k := by
      rw [← hk]
      rcases List.mem_pair.1 hop with rfl | rfl <;> exact hbelow
    rw [interpolate, hmatching]
    exact hquotient _ (by omega)
  · intro op hop
    have hmatching : matching op t r.histogram.bins = Float.ofNat (r.count - k) := by
      rw [← hfrom]
      rcases List.mem_pair.1 hop with rfl | rfl <;> exact habove
    rw [interpolate, hmatching]
    exact hquotient _ (by omega)

theorem interpolate_at_edge {values : List Float} {n : ℕ} (hc : r.histogram.Counted values n)
    (hlength : r.count = values.length)
    (hfirst : ∀ first, r.histogram.edges.head? = some first → ∀ v ∈ values, first ≤ v)
    (hascending : Ascending r.histogram.edges) {e t : Float} (he : e ∈ r.histogram.edges.dropLast) (het : e ≤ t)
    (hte : t ≤ e) :
    (∀ op ∈ [Comparison.lt, .le], r.interpolate op t = Float.ofNat (valuesBelow values t) / Float.ofNat r.count) ∧
      ∀ op ∈ [Comparison.gt, .ge],
        r.interpolate op t = Float.ofNat (r.count - valuesBelow values t) / Float.ofNat r.count :=
  interpolate_of_undivided hcount hsmall (undivided_of_mem hascending (List.mem_of_mem_dropLast he) het hte)
    ((hc.sum_counts hfirst).trans hlength.symm) (hc.startedBelow_eq hfirst hascending he het hte)

end

section
variable {maxBins : ℕ} {declared : Option ValueType} {c : Column}

theorem count_eq_length (htype : (ofColumn maxBins declared c).type ≠ .string) :
    (ofColumn maxBins declared c).count = (classify (declared.or c.declared) c.values).values.numbers.length := by
  rw [ofColumn, (ofClassified_eq ..).1] at htype
  rw [ofColumn, (ofClassified_eq ..).2]
  simp only [classify] at htype ⊢
  generalize Classified.columnType (declared.or c.declared) c.values = type at *
  cases type with
  | string => exact absurd rfl htype
  | int => exact (List.length_map _).symm
  | float => rfl

theorem type_of_bins (hbins : (ofColumn maxBins declared c).histogram.isEmpty = false) :
    (ofColumn maxBins declared c).type ≠ .string := by
  rw [ofColumn] at hbins ⊢
  rw [(ofClassified_eq ..).1]
  intro htype
  rw [ofClassified] at hbins
  simp only [classify] at htype hbins
  rw [htype] at hbins
  simp only [Classified.typed, withTexts] at hbins
  split at hbins <;> cases hbins

theorem exists_counted (hbins : (ofColumn maxBins declared c).histogram.isEmpty = false) :
    let values := (classify (declared.or c.declared) c.values).values.numbers
    let r := ofColumn maxBins declared c
    ∃ n distinct, r.histogram.Counted values n ∧
      r.selectivity = (Selectivity.equality distinct).fillRanges r.histogram c.length ∧ 0 < values.length := by
  intro values r
  obtain ⟨s, hvalues, hne, hhistogram, hselectivity⟩ := exists_spread hbins
  obtain ⟨-, hc⟩ := counted_equalWidth (hhistogram ▸ hbins)
  rw [← hhistogram, hvalues] at hc
  rw [hvalues] at hne
  exact ⟨_, _, hc, hselectivity, List.length_pos_iff.2 hne⟩

end

/-- Of the range maps the one of `<` says for every edge how many rows have a value below it. Estimates of `<` and `<=`
    say the same of the rows that have a value at all. Edges may be repeated. -/
theorem estimate_at_keys {maxBins : ℕ} {declared : Option ValueType} {c : Column} :
    let values := (classify (declared.or c.declared) c.values).values.numbers
    let r := ofColumn maxBins declared c
    let edges := r.histogram.edges
    r.histogram.isEmpty = false → Ascending edges →
      (∀ first, edges.head? = some first → ∀ v ∈ values, first ≤ v) → r.count ≤ 2 ^ 53 →
      (∀ e ∈ edges.dropLast, r.selectivity.lt[(⟨e⟩ : Threshold)]?.isSome) ∧
        ∀ (t : Threshold) (share : Float), r.selectivity.lt[t]? = some share →
          let k := valuesBelow values t.value
          share = Float.ofNat k / Float.ofNat r.totalRows ∧
            ∀ v : Value, v.number? = some t.value →
              r.estimate .lt v = some (Float.ofNat k / Float.ofNat r.count) ∧
                r.estimate .le v = some (Float.ofNat k / Float.ofNat r.count) ∧
                (r.nullCount = 0 → r.estimate .lt v = some share ∧ r.estimate .le v = some share) := by
  intro values r edges hbins hascending hfirst hsmall
  have htype : r.type ≠ .string := type_of_bins hbins
  have hcount : r.count = values.length := count_eq_length htype
  have hrows : r.totalRows = c.length := totalRows_ofColumn maxBins declared c
  obtain ⟨n, distinct, hc, hselectivity, hpos⟩ := exists_counted hbins
  have hpos : 0 < r.count := hcount ▸ hpos
  have hall : 0 < c.length := hrows ▸ Nat.add_pos_left hpos _
  obtain ⟨hnone, hsome⟩ := hc.lt_fillRanges hfirst hascending distinct hall
  rw [← hselectivity, ← hrows] at hsome
  rw [← hselectivity] at hnone
  refine ⟨fun e he => by rw [hsome e he]; rfl, ?_⟩
  intro t share ht k
  have hmem : t.value ∈ edges.dropLast := by
    by_contra hnot
    rw [hnone t hnot] at ht
    cases ht
  obtain rfl : share = Float.ofNat k / Float.ofNat r.totalRows := Option.some.inj (ht.symm.trans (hsome t.value hmem))
  have hself : t.value ≤ t.value := float_le_refl (hc.isNaN_of_mem hascending (List.mem_of_mem_dropLast hmem))
  have hbelow := (interpolate_at_edge hpos hsmall hc hcount hfirst hascending hmem hself hself).1
  refine ⟨rfl, ?_⟩
  intro v hv
  have hlt : r.estimate .lt v = some (Float.ofNat k / Float.ofNat r.count) := by
    rw [estimate_eq_interpolate hpos.ne' htype (by decide) hv hbins, hbelow .lt (by decide)]
  have hle : r.estimate .le v = some (Float.ofNat k / Float.ofNat r.count) := by
    rw [estimate_eq_interpolate hpos.ne' htype (by decide) hv hbins, hbelow .le (by decide)]
  refine ⟨hlt, hle, ?_⟩
  intro hnull
  rw [totalRows, hnull, Nat.add_zero]
  exact ⟨hlt, hle⟩

/-- Three integers of which two are one float, with and without a row that has no value: three bins start at two edges.
-/
theorem estimate_at_keys_collapsed :
    let low : Value := .int 9007199254740992
    let middle : Value := .int 9007199254740993
    let high : Value := .int 9007199254740994
    let c : Column := ⟨"n", none, [some low, none, some middle, some high]⟩
    let d : Column := ⟨"n", none, [some low, some middle, some high]⟩
    let edges : List Float := [9007199254740992, 9007199254740992, 9007199254740994, 9007199254740994]
    let r := ofColumn 10 none c
    let s := ofColumn 10 none d
    r.histogram.isEmpty = false ∧ s.histogram.isEmpty = false ∧ r.histogram.edges = edges ∧ s.histogram.edges = edges ∧
      Ascending edges ∧ r.count = 3 ∧ r.totalRows = 4 ∧ s.count = 3 ∧ s.nullCount = 0 ∧
      r.selectivity.lt[(⟨9007199254740994⟩ : Threshold)]? = some (2 / 4) ∧
      r.estimate .lt high = some (2 / 3) ∧ r.estimate .le high = some (2 / 3) ∧
      s.selectivity.lt[(⟨9007199254740994⟩ : Threshold)]? = some (2 / 3) ∧ s.estimate .lt high = some (2 / 3) ∧
      s.estimate .le high = some (2 / 3) := by
  intro low middle high c d edges r s
  have hbins : r.histogram.isEmpty = false ∧ s.histogram.isEmpty = false := by decide +kernel
  have hedges : r.histogram.edges = edges ∧ s.histogram.edges = edges := by decide +kernel
  have hascending : Ascending edges := by decide +kernel
  have hcounts : r.count = 3 ∧ r.totalRows = 4 ∧ s.count = 3 ∧ s.nullCount = 0 := by decide +kernel
  have hvalues : (classify (none.or c.declared) c.values).values.numbers =
        [9007199254740992, 9007199254740992, 9007199254740994] ∧
      (classify (none.or d.declared) d.values).values.numbers =
        [9007199254740992, 9007199254740992, 9007199254740994] := by decide +kernel
  have hfirst : ∀ first, edges.head? = some first →
      ∀ v ∈ [9007199254740992, 9007199254740992, 9007199254740994], first ≤ v := by
    have hall : ∀ v ∈ [9007199254740992, 9007199254740992, 9007199254740994], (9007199254740992 : Float) ≤ v := by
      decide +kernel
    intro first hhead
    rw [List.head?_cons, Option.some.injEq] at hhead
    rwa [← hhead]
  have hshares : r.selectivity.lt[(⟨9007199254740994⟩ : Threshold)]? = some (2 / 4) ∧
      s.selectivity.lt[(⟨9007199254740994⟩ : Threshold)]? = some (2 / 3) := by decide +kernel
  have hbelow : valuesBelow [9007199254740992, 9007199254740992, 9007199254740994] 9007199254740994 = 2 := by
    decide +kernel
  have hhigh : high.number? = some 9007199254740994 := by decide +kernel
  obtain ⟨-, hr⟩ := estimate_at_keys hbins.1 (hedges.1 ▸ hascending) (by rwa [hedges.1, hvalues.1])
    (hcounts.1.le.trans (by norm_num))
  obtain ⟨-, hs⟩ := estimate_at_keys hbins.2 (hedges.2 ▸ hascending) (by rwa [hedges.2, hvalues.2])
    (hcounts.2.2.1.le.trans (by norm_num))
  obtain ⟨hlt, hle, -⟩ := (hr _ _ hshares.1).2 high hhigh
  obtain ⟨-, -, hsame⟩ := (hs _ _ hshares.2).2 high hhigh
  rw [hvalues.1, hbelow, hcounts.1] at hlt hle
  exact ⟨hbins.1, hbins.2, hedges.1, hedges.2, hascending, hcounts.1, hcounts.2.1, hcounts.2.2.1, hcounts.2.2.2,
    hshares.1, hlt, hle, hshares.2, hsame hcounts.2.2.2⟩

end Record
end GraphProfile
