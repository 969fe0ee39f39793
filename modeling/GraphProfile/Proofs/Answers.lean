import GraphProfile.Proofs.EndEstimates
import GraphProfile.Proofs.RecordShape

set_option autoImplicit false

/-!
# When a record answers

A record has no answer for a range of texts, nor for a text against numbers, and for all else it has one. Where numbers
have no bins a range is answered from the least of them alone. That is exact, because with room for two bins there are
none only for numbers that are all one; it may be written as either zero, but no comparison can tell.
-/
namespace GraphProfile
open Decimal

theorem eq_of_length_dedup {α : Type} [DecidableEq α] {l : List α} (h : l.dedup.length ≤ 1) {a b : α} (ha : a ∈ l)
    (hb : b ∈ l) : a = b := by
  rw [← List.mem_dedup] at ha hb
  cases hl : l.dedup with
  | nil =>
    rw [hl] at ha
    cases ha
  | cons d rest =>
    rw [hl, List.length_cons] at h
    obtain rfl := List.length_eq_zero_iff.1 (by omega : rest.length = 0)
    rw [hl, List.mem_singleton] at ha hb
    rw [ha, hb]

/-- Numbers that are equal when one zero stands for both are equal as they compare. -/
theorem beq_of_normal {x y : Float} (hx : x.isNaN = false) (hy : y.isNaN = false)
    (h : (if x == 0 then 0 else x) = if y == 0 then 0 else y) : (x == y) = true := by
  have hplace : ∀ z : Float, z.isNaN = false → place (if z == 0 then 0 else z) = place z := by
    intro z hz
    split
    · rename_i hzero
      exact ((beq_iff_place hz isNearest_zeroFloat.number).1 hzero).symm
    · rfl
  rw [beq_iff_place hx hy, ← hplace x hx, ← hplace y hy, h]

theorem holds_congr {x y : Float} (h : (x == y) = true) (hx : x.isNaN = false) (hy : y.isNaN = false)
    (op : Comparison) (hop : op ≠ .eq ∧ op ≠ .ne) (t : Float) : op.holds x t = op.holds y t := by
  have hplace := (beq_iff_place hx hy).1 h
  have hxy := (le_iff_place hx hy).2 hplace.le
  have hyx := (le_iff_place hy hx).2 hplace.ge
  cases op with
  | eq => exact absurd rfl hop.1
  | ne => exact absurd rfl hop.2
  | lt => exact decide_eq_decide.2 ⟨float_lt_of_le_of_lt hyx, float_lt_of_le_of_lt hxy⟩
  | le => exact decide_eq_decide.2 ⟨float_le_trans hyx, float_le_trans hxy⟩
  | gt => exact decide_eq_decide.2 ⟨fun hlt => float_lt_of_lt_of_le hlt hxy, fun hlt => float_lt_of_lt_of_le hlt hyx⟩
  | ge => exact decide_eq_decide.2 ⟨fun hle => float_le_trans hle hxy, fun hle => float_le_trans hle hyx⟩

theorem Typed.beq_of_distinct {values : Typed} (hfinite : values.Finite) (hone : values.distinct ≤ 1) :
    ∀ x ∈ values.numbers, ∀ y ∈ values.numbers, (x == y) = true := by
  intro x hx y hy
  cases values with
  | text ss => cases hx
  | int ns =>
    obtain ⟨m, hm, rfl⟩ := List.mem_map.1 hx
    obtain ⟨n, hn, rfl⟩ := List.mem_map.1 hy
    rw [eq_of_length_dedup hone hm hn]
    exact float_beq_self (isNaN_of_isFinite (isFinite_nearestFloat n))
  | float xs =>
    have hnumber := fun {z : Float} hz => isNaN_of_isFinite (hfinite z hz)
    refine beq_of_normal (hnumber hx) (hnumber hy) (eq_of_length_dedup hone ?_ ?_)
    · exact List.mem_map_of_mem hx
    · exact List.mem_map_of_mem hy

theorem Typed.least_mem {values : Typed} (hfinite : values.Finite) {s : Record.Spread} (h : values.spread? = some s) :
    s.least.toFloat ∈ values.numbers := by
  cases values with
  | text ss => cases h
  | int ns =>
    obtain ⟨least, greatest, hleast, -, rfl⟩ := Record.spreadOfInts?_eq_some h
    exact List.mem_map_of_mem (List.min?_eq_some_iff.1 hleast).1
  | float xs =>
    obtain ⟨hne, rfl⟩ := Record.spreadOfFloats?_eq_some h
    exact (Record.leastFloat_spec hfinite hne).1

def Column.counted (c : Column) : List Float :=
  (c.values.filterMap fun cell => cell.bind Value.number?).filter Float.isFinite

namespace Record

section
variable {maxBins : ℕ} {declared : Option ValueType} {c : Column}

theorem numbers_eq_counted (hnumeric : (ofColumn maxBins declared c).type ≠ .string) :
    (classify (declared.or c.declared) c.values).values.numbers = c.counted := by
  rw [ofColumn, (ofClassified_eq ..).1] at hnumeric
  simp only [classify] at hnumeric ⊢
  cases htype : Classified.columnType (declared.or c.declared) c.values with
  | string => exact absurd htype hnumeric
  | float => rfl
  | int =>
    have hcells : (c.values.filterMap fun cell => cell.bind Value.number?) =
        (c.values.filterMap fun cell => cell.bind Value.int?).map nearestFloat := by
      rw [List.map_filterMap]
      apply List.filterMap_congr
      intro cell hcell
      cases cell with
      | none => rfl
      | some v =>
        obtain ⟨n, rfl⟩ := Classified.exists_int_of_mem htype (List.reduceOption_mem_iff.2 hcell)
        rfl
    rw [Column.counted, hcells, List.filter_eq_self.2]
    · rfl
    · intro x hx
      obtain ⟨n, -, rfl⟩ := List.mem_map.1 hx
      exact isFinite_nearestFloat n

theorem estimate_eq_none_iff (op : Comparison) (v : Value) :
    (ofColumn maxBins declared c).estimate op v = none ↔
      0 < (ofColumn maxBins declared c).count ∧
        ((ofColumn maxBins declared c).type = .string ∧ op ≠ .eq ∧ op ≠ .ne ∨
          (ofColumn maxBins declared c).type ≠ .string ∧ ∃ s, v = .text s) := by
  by_cases hcount : (ofColumn maxBins declared c).count = 0
  · rw [estimate, if_pos hcount, hcount]
    exact iff_of_false (Option.some_ne_none 0) fun h => absurd h.1 (lt_irrefl 0)
  · rw [and_iff_right (Nat.pos_of_ne_zero hcount)]
    by_cases hstring : (ofColumn maxBins declared c).type = .string
    · rw [estimate, if_neg hcount, if_pos hstring]
      cases op <;> simp [estimateText, hstring]
    · have hanswer : ∀ x, v.number? = some x → (ofColumn maxBins declared c).estimate op v ≠ none := by
        intro x hv
        exact Option.isSome_iff_ne_none.1 (isSome_estimate hstring hv op)
      cases v with
      | text s =>
        rw [estimate, if_neg hcount, if_neg hstring]
        exact iff_of_true rfl (.inr ⟨hstring, s, rfl⟩)
      | int n => simpa [hstring] using hanswer _ rfl
      | float x => simpa [hstring] using hanswer _ rfl

theorem distinct_le_of_isEmpty (hbins : 2 ≤ maxBins) (hnumeric : (ofColumn maxBins declared c).type ≠ .string)
    (hempty : (ofColumn maxBins declared c).histogram.isEmpty = true) :
    (classify (declared.or c.declared) c.values).values.distinct ≤ 1 := by
  have hshape := shape_ofColumn maxBins declared c
  have hcounts := hshape.bins_of_numbers hnumeric
  rw [← hshape.distinct_eq]
  rw [Histogram.isEmpty, List.isEmpty_iff] at hempty
  by_contra hmore
  rw [if_pos (by omega), hempty, List.length_nil] at hcounts
  omega

theorem count_eq_counted (hnumeric : (ofColumn maxBins declared c).type ≠ .string) :
    (ofColumn maxBins declared c).count = c.counted.length := by
  rw [count_eq_length hnumeric, numbers_eq_counted hnumeric]

theorem exists_least (hnumeric : (ofColumn maxBins declared c).type ≠ .string)
    (hpos : 0 < (ofColumn maxBins declared c).count) :
    ∃ only, (ofColumn maxBins declared c).least = some only ∧ only.toFloat ∈ c.counted := by
  rw [count_eq_length hnumeric] at hpos
  obtain ⟨s, hs, -⟩ := Typed.exists_spread? (List.length_pos_iff.1 hpos)
  refine ⟨s.least, ?_, ?_⟩
  · rw [ofColumn, ofClassified_of_spread hs]
    rfl
  · rw [← numbers_eq_counted hnumeric]
    exact Typed.least_mem (Classified.finite_typed c.values _) hs

theorem beq_of_isEmpty (hbins : 2 ≤ maxBins) (hnumeric : (ofColumn maxBins declared c).type ≠ .string)
    (hempty : (ofColumn maxBins declared c).histogram.isEmpty = true) :
    ∀ x ∈ c.counted, ∀ y ∈ c.counted, (x == y) = true := by
  rw [← numbers_eq_counted hnumeric]
  exact Typed.beq_of_distinct (Classified.finite_typed c.values _) (distinct_le_of_isEmpty hbins hnumeric hempty)

/-- Integers are told apart even where they are one float. -/
theorem exists_int_of_isEmpty (hbins : 2 ≤ maxBins) (hint : (ofColumn maxBins declared c).type = .int)
    (hpos : 0 < (ofColumn maxBins declared c).count)
    (hempty : (ofColumn maxBins declared c).histogram.isEmpty = true) : ∃ n, ∀ v, some v ∈ c.values → v = .int n := by
  have hone := distinct_le_of_isEmpty hbins (by rw [hint]; decide) hempty
  obtain ⟨n, _, -, -, hn, -, hall⟩ := (shape_ofColumn maxBins declared c).bounds_of_ints hint hpos
  rw [ofColumn, (ofClassified_eq ..).1] at hint
  simp only [classify] at hint hone
  rw [hint] at hone
  refine ⟨n, ?_⟩
  intro v hv
  obtain ⟨m, rfl, -⟩ := hall v hv
  rw [eq_of_length_dedup hone (mem_ints.2 hv) (mem_ints.2 hn)]

/-- The least number answers for all of them. -/
theorem estimate_of_one (hbins : 2 ≤ maxBins) (hnumeric : (ofColumn maxBins declared c).type ≠ .string)
    (hpos : 0 < (ofColumn maxBins declared c).count)
    (hempty : (ofColumn maxBins declared c).histogram.isEmpty = true) {op : Comparison} (hop : op ≠ .eq ∧ op ≠ .ne)
    {v : Value} {t : Float} (hv : v.number? = some t) :
    ∃ x, (ofColumn maxBins declared c).estimate op v = some x ∧ (x = 0 ∨ x = 1) ∧
      toRat x = (c.counted.countP fun y => op.holds y t) / c.counted.length := by
  obtain ⟨only, honly, hmem⟩ := exists_least hnumeric hpos
  have hnumber : ∀ y ∈ c.counted, y.isNaN = false := fun y hy => isNaN_of_isFinite (List.mem_filter.1 hy).2
  have hsame : ∀ y ∈ c.counted, op.holds y t = op.holds only.toFloat t := by
    intro y hy
    have hbeq := beq_of_isEmpty hbins hnumeric hempty y hy only.toFloat hmem
    exact holds_congr hbeq (hnumber y hy) (hnumber _ hmem) op hop t
  have hlength : (c.counted.length : ℚ) ≠ 0 := by
    rw [count_eq_counted hnumeric] at hpos
    exact_mod_cast hpos.ne'
  rw [estimate_of_isEmpty hpos.ne' hnumeric hop hv hempty honly]
  by_cases hholds : op.holds only.toFloat t = true
  · refine ⟨1, by rw [if_pos hholds], .inr rfl, ?_⟩
    have hall : (c.counted.countP fun y => op.holds y t) = c.counted.length := by
      rw [List.countP_eq_length]
      intro y hy
      rw [hsame y hy, hholds]
    rw [hall, div_self hlength, toRat_one]
  · refine ⟨0, by rw [if_neg hholds], .inl rfl, ?_⟩
    have hnone : (c.counted.countP fun y => op.holds y t) = 0 := by
      rw [List.countP_eq_zero]
      intro y hy
      rwa [hsame y hy]
    rw [hnone, Nat.cast_zero, zero_div, toRat_zero]

end

/-- An answer is missing for a range of texts and for a text among numbers, and nowhere else. Where numbers have no bins
    they are one number, exactly so if they are integers, and a range has the share of those that are in it. -/
theorem estimate_answers {maxBins : ℕ} (hbins : 2 ≤ maxBins) (declared : Option ValueType) (c : Column) :
    let r := ofColumn maxBins declared c
    (∀ op v, r.estimate op v = none ↔
        0 < r.count ∧ (r.type = .string ∧ op ≠ .eq ∧ op ≠ .ne ∨ r.type ≠ .string ∧ ∃ s, v = .text s)) ∧
      (r.type ≠ .string → 0 < r.count → r.histogram.isEmpty →
        r.count = c.counted.length ∧
          (∀ x ∈ c.counted, ∀ y ∈ c.counted, (x == y) = true) ∧
          (r.type = .int → ∃ n, ∀ v, some v ∈ c.values → v = .int n) ∧
          ∀ op v t, op ≠ .eq ∧ op ≠ .ne → v.number? = some t →
            ∃ x, r.estimate op v = some x ∧ (x = 0 ∨ x = 1) ∧
              toRat x = (c.counted.countP fun y => op.holds y t) / r.count) := by
  intro r
  refine ⟨estimate_eq_none_iff, ?_⟩
  intro hnumeric hpos hempty
  have hcount := count_eq_counted hnumeric
  refine ⟨hcount, beq_of_isEmpty hbins hnumeric hempty, ?_, ?_⟩
  · intro hint
    exact exists_int_of_isEmpty hbins hint hpos hempty
  · intro op v t hop hv
    have hone := estimate_of_one hbins hnumeric hpos hempty hop hv
    rwa [← hcount] at hone

/-- Both zeros, an integer that is zero and what is no number: one value in three of five cells. -/
theorem estimate_answers_zeros :
    let c : Column := ⟨"x", none, [some (.float 0), some (.float nan), none, some (.float (-0)), some (.int 0)]⟩
    let r := ofColumn 2 none c
    2 ≤ 2 ∧ r.type ≠ .string ∧ r.count = 3 ∧ r.histogram.isEmpty = true ∧ c.counted = [0, -0, 0] ∧
      ((0 : Float) == -0) = true ∧ r.estimate .le (.text "0") = none ∧
      (∃ x, r.estimate .le (.int 0) = some x ∧ toRat x = 3 / 3) ∧
      (∃ x, r.estimate .lt (.int 0) = some x ∧ toRat x = 0 / 3) ∧
      ∃ x, r.estimate .ge (.float nan) = some x ∧ toRat x = 0 / 3 := by
  intro c r
  have hnumeric : r.type ≠ .string := by decide +kernel
  have hcount : r.count = 3 := by decide +kernel
  have hempty : r.histogram.isEmpty = true := by decide +kernel
  have hcounted : c.counted = [0, -0, 0] := by decide +kernel
  have hpos : 0 < r.count := by omega
  obtain ⟨hnone, hone⟩ := estimate_answers (le_refl 2) none c
  obtain ⟨-, hbeq, -, hrange⟩ := hone hnumeric hpos hempty
  have hshare : ∀ op v t n, op ≠ .eq ∧ op ≠ .ne → v.number? = some t →
      ([0, -0, 0].countP fun y => op.holds y t) = n → ∃ x, r.estimate op v = some x ∧ toRat x = n / 3 := by
    intro op v t n hop hv hn
    obtain ⟨x, hx, -, hshare⟩ := hrange op v t hop hv
    change toRat x = _ / (r.count : ℚ) at hshare
    rw [hcounted, hn, hcount] at hshare
    exact ⟨x, hx, hshare⟩
  refine ⟨le_refl 2, hnumeric, hcount, hempty, hcounted, ?_, ?_, ?_, ?_, ?_⟩
  · exact hbeq 0 (by rw [hcounted]; decide) (-0) (by rw [hcounted]; decide)
  · exact (hnone .le (.text "0")).2 ⟨hpos, .inr ⟨hnumeric, "0", rfl⟩⟩
  · exact_mod_cast hshare .le (.int 0) 0 3 (by decide) (by decide +kernel) (by decide +kernel)
  · exact_mod_cast hshare .lt (.int 0) 0 0 (by decide) (by decide +kernel) (by decide +kernel)
  · exact_mod_cast hshare .ge (.float nan) nan 0 (by decide) rfl (by decide +kernel)

end Record
end GraphProfile
