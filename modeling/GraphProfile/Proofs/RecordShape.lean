import GraphProfile.Proofs.Classification
import GraphProfile.Proofs.RangeMaps
import GraphProfile.Proofs.Storable
import GraphProfile.Proofs.TextShares

set_option autoImplicit false

namespace GraphProfile
open Std

theorem size_ofList {κ : Type} [Ord κ] [TransOrd κ] [LawfulEqOrd κ] [DecidableEq κ] (l : List κ) :
    (ExtTreeSet.ofList l).size = l.dedup.length := by
  have hkeys : (ExtTreeSet.ofList l).toList.Perm l.dedup := by
    rw [List.perm_ext_iff_of_nodup _ l.nodup_dedup]
    · intro k
      rw [ExtTreeSet.mem_toList, ExtTreeSet.mem_ofList, List.contains_iff_mem, List.mem_dedup]
    · refine ExtTreeSet.distinct_toList.imp ?_
      rintro k _ hne rfl
      exact hne ReflCmp.compare_self
  rw [← hkeys.length_eq, ExtTreeSet.length_toList]

namespace Typed

/-- How many of the values differ. Both zeros are one value. -/
def distinct : Typed → ℕ
  | .int ns => ns.dedup.length
  | .float xs => (xs.map fun x => if x == 0 then 0 else x).dedup.length
  | .text ss => ss.dedup.length

theorem distinct_le (values : Typed) : values.distinct ≤ values.length := by
  cases values with
  | int ns => exact ns.dedup_sublist.length_le
  | text ss => exact ss.dedup_sublist.length_le
  | float xs =>
    have hle := (xs.map fun x => if x == 0 then 0 else x).dedup_sublist.length_le
    rwa [List.length_map] at hle

theorem distinct_eq_zero_iff (values : Typed) : values.distinct = 0 ↔ values.length = 0 := by
  cases values <;> simp [distinct, length, List.dedup_eq_nil]

theorem distinct_of_spread? {values : Typed} {s : Record.Spread} (h : values.spread? = some s) :
    s.distinct = values.distinct := by
  cases values with
  | text ss => cases h
  | int ns =>
    obtain ⟨least, greatest, -, -, rfl⟩ := Record.spreadOfInts?_eq_some h
    have hinjective : Function.Injective Int64.toInt := fun _ _ => Int64.toInt_inj.1
    simp only [Record.distinctInts, size_ofList, distinct, List.dedup_map_of_injective hinjective, List.length_map]
  | float xs =>
    obtain ⟨-, rfl⟩ := Record.spreadOfFloats?_eq_some h
    have hinjective : Function.Injective Threshold.mk := fun _ _ heq => congrArg Threshold.value heq
    have hmap := List.map_map (f := fun x : Float => if x == 0 then 0 else x) (g := Threshold.mk) (l := xs)
    simp only [Record.distinctFloats, size_ofList, distinct]
    rw [← List.length_map (f := Threshold.mk), ← List.dedup_map_of_injective hinjective, hmap]
    rfl

theorem spread?_eq_none_iff {values : Typed} : values.spread? = none ↔ values.numbers = [] := by
  constructor
  · intro hnone
    by_contra hne
    obtain ⟨s, hs, -⟩ := exists_spread? hne
    rw [hnone] at hs
    cases hs
  · intro hnil
    cases values with
    | text ss => rfl
    | int ns =>
      rw [numbers, List.map_eq_nil_iff] at hnil
      rw [hnil]
      rfl
    | float xs =>
      rw [numbers] at hnil
      rw [hnil]
      rfl

def texts : Typed → List String
  | .text ss => ss
  | _ => []

theorem length_numbers {values : Typed} (h : values.texts = []) : values.numbers.length = values.length := by
  cases values with
  | text ss => exact (congrArg List.length h).symm
  | int ns => exact List.length_map _
  | float xs => rfl

/-- The distribution of the values: over the spread of numbers, and of texts one by one. -/
def histogram (maxBins : ℕ) (values : Typed) : Histogram :=
  values.spread?.elim (.ofTexts values.texts) fun s =>
    .equalWidth s.values s.least.toFloat s.greatest.toFloat s.distinct maxBins

theorem histogram_of_numbers (maxBins : ℕ) {values : Typed} (h : values.texts = []) :
    (values.histogram maxBins).frequencies = ∅ ∧
      if 2 ≤ min maxBins values.distinct then
        (values.histogram maxBins).counts.length = min maxBins values.distinct ∧
          (values.histogram maxBins).edges.length = (values.histogram maxBins).counts.length + 1
      else (values.histogram maxBins).edges = [] ∧ (values.histogram maxBins).counts = [] := by
  unfold histogram
  cases hs : values.spread? with
  | none =>
    have hnone : values.distinct = 0 := by
      rw [distinct_eq_zero_iff, ← length_numbers h, spread?_eq_none_iff.1 hs, List.length_nil]
    rw [h, hnone, Nat.min_zero, if_neg (by decide)]
    exact ⟨rfl, rfl, rfl⟩
  | some s =>
    rw [← distinct_of_spread? hs, Option.elim_some]
    by_cases htwo : 2 ≤ min maxBins s.distinct
    · obtain ⟨hedges, hcounts, -⟩ :=
        (Histogram.equalWidth_counts s.values s.least.toFloat s.greatest.toFloat s.distinct maxBins).2 htwo
      rw [if_pos htwo, hedges, hcounts, Histogram.equalWidth_of_lt htwo]
      exact ⟨rfl, rfl, rfl⟩
    · rw [if_neg htwo, Histogram.equalWidth_of_le (by omega)]
      exact ⟨rfl, rfl, rfl⟩

end Typed

/-- There is one edge more than there are bins, or neither. -/
def Histogram.Fits (h : Histogram) : Prop :=
  h.edges.length = h.counts.length + 1 ∨ h.edges = [] ∧ h.counts = []

theorem Typed.fits_histogram (maxBins : ℕ) (values : Typed) : (values.histogram maxBins).Fits := by
  have hnumbers : values.texts = [] → (values.histogram maxBins).Fits := by
    intro h
    have hbins := (histogram_of_numbers maxBins h).2
    split at hbins
    · exact .inl hbins.2
    · exact .inr hbins
  cases values with
  | int ns => exact hnumbers rfl
  | float xs => exact hnumbers rfl
  | text ss => exact .inr ⟨rfl, rfl⟩

namespace Selectivity

theorem eq_equality (distinct : ℕ) :
    (equality distinct).eq = if distinct = 0 then 1 else 1 / Float.ofNat distinct := by
  cases distinct <;> rfl

theorem fillBins_equality (rows : ℕ) (s : Selectivity) (below : ℕ) (bins : List Bin) :
    (fillBins rows s below bins).eq = s.eq ∧ (fillBins rows s below bins).ne = s.ne := by
  induction bins generalizing s below with
  | nil => exact ⟨rfl, rfl⟩
  | cons b bins ih => exact ih (s.setEdge rows ⟨b.lo⟩ below (below + b.count)) (below + b.count)

theorem Holds.mem_iff {s : Selectivity} {t : Threshold} {found : Option Shares} (h : s.Holds t found) :
    ∀ m ∈ s.ranges, t ∈ m ↔ found.isSome := by
  obtain ⟨hlt, hle, hgt, hge⟩ := h
  intro m hm
  rw [ExtTreeMap.mem_iff_isSome_getElem?]
  simp only [ranges, List.mem_cons, List.not_mem_nil, or_false] at hm
  rcases hm with rfl | rfl | rfl | rfl
  · rw [hgt, Option.isSome_map]
  · rw [hge, Option.isSome_map]
  · rw [hlt, Option.isSome_map]
  · rw [hle, Option.isSome_map]

section
variable {h : Histogram} (hfits : h.Fits) (distinct rows : ℕ)
include hfits

theorem mem_ranges_fillRanges :
    ∀ m ∈ ((equality distinct).fillRanges h rows).ranges, ∀ t, t ∈ m ↔ t.value ∈ h.edges.dropLast := by
  intro m hm t
  have hstarts : h.starts = h.edges.dropLast := by
    rcases hfits with hlength | ⟨hedges, -⟩
    · exact Histogram.starts_of_length hlength
    · rw [Histogram.starts, hedges, List.dropLast_nil, List.take_nil]
  rw [← hstarts]
  by_cases ht : t.value ∈ h.starts
  · obtain ⟨before, after, hsplit, hafter⟩ := exists_last_of_mem ht
    rw [(holds_fillRanges (equality distinct) rows hsplit hafter).mem_iff m hm]
    exact iff_of_true rfl ht
  · rw [((holds_equality distinct t).fillRanges ht rows).mem_iff m hm]
    exact iff_of_false Bool.false_ne_true ht

theorem isEmpty_ranges_fillRanges :
    ∀ m ∈ ((equality distinct).fillRanges h rows).ranges, m.isEmpty = h.isEmpty := by
  intro m hm
  have hmem := mem_ranges_fillRanges hfits distinct rows m hm
  have hstarts : h.edges.dropLast.length = h.counts.length := by
    rw [List.length_dropLast]
    rcases hfits with hlength | ⟨hedges, hcounts⟩
    · omega
    · rw [hedges, hcounts]
      rfl
  rw [Bool.eq_iff_iff, ExtTreeMap.isEmpty_iff, Histogram.isEmpty, List.isEmpty_iff, ← List.length_eq_zero_iff, ← hstarts,
    List.length_eq_zero_iff]
  constructor
  · rintro rfl
    rw [List.eq_nil_iff_forall_not_mem]
    intro edge hedge
    exact ExtTreeMap.not_mem_empty ((hmem ⟨edge⟩).2 hedge)
  · intro hnil
    apply ExtTreeMap.ext_getElem?
    intro t
    rw [ExtTreeMap.getElem?_empty, ExtTreeMap.getElem?_eq_none]
    rw [hmem t, hnil]
    exact List.not_mem_nil

end
end Selectivity

namespace Record
open Histogram

theorem ofClassified_form (maxBins rows : ℕ) (c : Classified) :
    ofClassified maxBins rows c =
      { type := c.type
        count := c.values.length
        nullCount := c.nullCount
        distinctCount := c.values.distinct
        least := c.values.spread?.map Spread.least
        greatest := c.values.spread?.map Spread.greatest
        histogram := c.values.histogram maxBins
        selectivity := (Selectivity.equality c.values.distinct).fillRanges (c.values.histogram maxBins) rows } := by
  cases hs : c.values.spread? with
  | some s =>
    rw [ofClassified_of_spread hs, Typed.histogram, hs, ← Typed.distinct_of_spread? hs]
    rfl
  | none =>
    have hnumbers := Typed.spread?_eq_none_iff.1 hs
    cases hvalues : c.values with
    | int ns =>
      rw [hvalues, Typed.numbers, List.map_eq_nil_iff] at hnumbers
      rw [ofClassified, hvalues, hnumbers]
      rfl
    | float xs =>
      rw [hvalues, Typed.numbers] at hnumbers
      rw [ofClassified, hvalues, hnumbers]
      rfl
    | text ss =>
      rw [ofClassified, hvalues, Typed.distinct, ← size_countTexts]
      cases ss <;> rfl

/-- What the parts of a record say of a column, of which the values are kept, and of each other. -/
structure Shape (r : Record) (maxBins : ℕ) (c : Column) (values : Typed) : Prop where
  count_eq : r.count = values.length
  distinct_eq : r.distinctCount = values.distinct
  totalRows_eq : r.count + r.nullCount = c.length
  distinct_le : r.distinctCount ≤ r.count
  distinct_eq_zero : r.distinctCount = 0 ↔ r.count = 0
  least_isSome : r.least.isSome ↔ r.type ≠ .string ∧ 0 < r.count
  greatest_isSome : r.greatest.isSome ↔ r.type ≠ .string ∧ 0 < r.count
  bounds_of_ints : r.type = .int → 0 < r.count →
    ∃ least greatest : Int64, r.least = some (.int least) ∧ r.greatest = some (.int greatest) ∧
      some (.int least) ∈ c.values ∧ some (.int greatest) ∈ c.values ∧
        ∀ v, some v ∈ c.values → ∃ n, v = .int n ∧ least ≤ n ∧ n ≤ greatest
  frequencies_eq : r.type ≠ .string → r.histogram.frequencies = ∅
  bins_of_texts : r.type = .string → r.histogram.edges = [] ∧ r.histogram.counts = []
  bins_of_numbers : r.type ≠ .string →
    if 2 ≤ min maxBins r.distinctCount then
      r.histogram.counts.length = min maxBins r.distinctCount ∧
        r.histogram.edges.length = r.histogram.counts.length + 1
    else r.histogram.edges = [] ∧ r.histogram.counts = []
  isEmpty_ranges : ∀ m ∈ r.selectivity.ranges, m.isEmpty = r.histogram.isEmpty
  mem_ranges : ∀ m ∈ r.selectivity.ranges, ∀ t, t ∈ m ↔ t.value ∈ r.histogram.edges.dropLast
  eq_eq : r.selectivity.eq = if r.distinctCount = 0 then 1 else 1 / Float.ofNat r.distinctCount
  ne_eq : r.selectivity.ne = 1 - r.selectivity.eq

theorem mem_ints {cells : List (Option Value)} {n : Int64} :
    n ∈ cells.filterMap (fun cell => cell.bind Value.int?) ↔ some (.int n) ∈ cells := by
  rw [List.mem_filterMap]
  constructor
  · rintro ⟨cell, hcell, hn⟩
    obtain ⟨v, rfl, hv⟩ := Option.bind_eq_some_iff.1 hn
    cases v with
    | int m =>
      obtain rfl := Option.some.inj hv
      exact hcell
    | float x => cases hv
    | text s => cases hv
  · intro hcell
    exact ⟨_, hcell, rfl⟩

theorem bounds_of_ints {cells : List (Option Value)} {declared : Option ValueType}
    (htype : Classified.columnType declared cells = .int) (hpos : 0 < (Classified.typed cells .int).length) :
    ∃ least greatest : Int64, (Classified.typed cells .int).spread?.map Spread.least = some (.int least) ∧
      (Classified.typed cells .int).spread?.map Spread.greatest = some (.int greatest) ∧
        some (.int least) ∈ cells ∧ some (.int greatest) ∈ cells ∧
          ∀ v, some v ∈ cells → ∃ n, v = .int n ∧ least ≤ n ∧ n ≤ greatest := by
  have hnumbers : (Classified.typed cells .int).numbers ≠ [] := by
    rwa [← List.length_pos_iff, Typed.length_numbers rfl]
  obtain ⟨s, hs, -⟩ := Typed.exists_spread? hnumbers
  obtain ⟨least, greatest, hleast, hgreatest, rfl⟩ := spreadOfInts?_eq_some hs
  obtain ⟨hmin, hlower⟩ := List.min?_eq_some_iff.1 hleast
  obtain ⟨hmax, hupper⟩ := List.max?_eq_some_iff.1 hgreatest
  rw [hs]
  refine ⟨least, greatest, rfl, rfl, mem_ints.1 hmin, mem_ints.1 hmax, ?_⟩
  intro v hv
  obtain ⟨n, rfl⟩ := Classified.exists_int_of_mem htype (List.reduceOption_mem_iff.2 hv)
  exact ⟨n, rfl, hlower n (mem_ints.2 hv), hupper n (mem_ints.2 hv)⟩

theorem texts_typed (cells : List (Option Value)) {type : ValueType} (h : type ≠ .string) :
    (Classified.typed cells type).texts = [] := by
  cases type with
  | int => rfl
  | float => rfl
  | string => exact absurd rfl h

theorem isSome_spread?_typed (cells : List (Option Value)) (type : ValueType) :
    (Classified.typed cells type).spread?.isSome ↔ type ≠ .string ∧ 0 < (Classified.typed cells type).length := by
  rw [Option.isSome_iff_ne_none, Ne, Typed.spread?_eq_none_iff]
  by_cases hstring : type = .string
  · rw [hstring]
    exact iff_of_false (fun h => h rfl) fun h => h.1 rfl
  · rw [and_iff_right hstring, ← Typed.length_numbers (texts_typed cells hstring), List.length_pos_iff]

/-- Whatever the values are, whatever is declared and however many bins there may be, none included. -/
theorem shape_ofColumn (maxBins : ℕ) (declared : Option ValueType) (c : Column) :
    (ofColumn maxBins declared c).Shape maxBins c (classify (declared.or c.declared) c.values).values := by
  have hrows := totalRows_ofColumn maxBins declared c
  have hform := ofClassified_form maxBins c.length (classify (declared.or c.declared) c.values)
  change ofColumn maxBins declared c = _ at hform
  rw [hform] at hrows ⊢
  simp only [classify] at hrows ⊢
  generalize htype : Classified.columnType (declared.or c.declared) c.values = type at *
  have hspread := isSome_spread?_typed c.values type
  have hhistogram := fun h : type ≠ .string => Typed.histogram_of_numbers maxBins (texts_typed c.values h)
  constructor
  case count_eq => rfl
  case distinct_eq => rfl
  case totalRows_eq => exact hrows
  case distinct_le => exact Typed.distinct_le _
  case distinct_eq_zero => exact Typed.distinct_eq_zero_iff _
  case least_isSome => rwa [Option.isSome_map]
  case greatest_isSome => rwa [Option.isSome_map]
  case bounds_of_ints =>
    rintro rfl hpos
    exact bounds_of_ints htype hpos
  case frequencies_eq => exact fun h => (hhistogram h).1
  case bins_of_numbers => exact fun h => (hhistogram h).2
  case bins_of_texts =>
    rintro rfl
    exact ⟨rfl, rfl⟩
  case isEmpty_ranges => exact Selectivity.isEmpty_ranges_fillRanges (Typed.fits_histogram maxBins _) _ _
  case mem_ranges => exact Selectivity.mem_ranges_fillRanges (Typed.fits_histogram maxBins _) _ _
  case eq_eq =>
    rw [Selectivity.fillRanges, (Selectivity.fillBins_equality ..).1]
    exact Selectivity.eq_equality _
  case ne_eq =>
    rw [Selectivity.fillRanges, (Selectivity.fillBins_equality ..).1, (Selectivity.fillBins_equality ..).2]
    rfl

end Record
end GraphProfile
