import GraphProfile.Proofs.FloatMonotone
import GraphProfile.Proofs.Storable
import GraphProfile.Statistics.Estimate

set_option autoImplicit false

/-!
# Range estimates along the targets

The part of a bin below a target grows with the target, for bins of any kind: whole bins and empty ones, bins of no
width and bins whose edges descend. No step from these parts to an estimate loses the order: not the product with a
count, nor the sum over the bins, nor the quotient, even where they are rounded. So a greater target never has a lesser
estimate of `<`, nor a greater one of `>`.
-/
namespace GraphProfile.Record
open Decimal

def IsShare (x : Float) : Prop := 0 ≤ x ∧ x ≤ 1

theorem isShare_zero : IsShare 0 := ⟨float_le_refl isNearest_zeroFloat.number, float_le_of_lt float_zero_lt_one⟩

theorem isShare_one : IsShare 1 := ⟨float_le_of_lt float_zero_lt_one, float_le_refl isNearest_one.number⟩

section
variable {x y : Float}

theorem IsShare.isFinite (h : IsShare x) : x.isFinite := isFinite_of_between isFinite_zero isFinite_one h.1 h.2

theorem clamp_cases (hx : x.isNaN = false) :
    x < 0 ∧ clamp x = 0 ∨ IsShare x ∧ clamp x = x ∨ 1 < x ∧ clamp x = 1 := by
  rw [clamp]
  by_cases hlow : x < 0
  · exact .inl ⟨hlow, if_pos hlow⟩
  · rw [if_neg hlow]
    by_cases hhigh : 1 < x
    · exact .inr (.inr ⟨hhigh, if_pos hhigh⟩)
    · have hzero : 0 ≤ x := by
        by_contra hle
        exact hlow ((float_not_le isNearest_zeroFloat.number hx).1 hle)
      have hone : x ≤ 1 := by
        by_contra hle
        exact hhigh ((float_not_le hx isNearest_one.number).1 hle)
      exact .inr (.inl ⟨⟨hzero, hone⟩, if_neg hhigh⟩)

theorem isShare_clamp (hx : x.isNaN = false) : IsShare (clamp x) := by
  rcases clamp_cases hx with ⟨-, heq⟩ | ⟨hshare, heq⟩ | ⟨-, heq⟩
  · rw [heq]
    exact isShare_zero
  · rwa [heq]
  · rw [heq]
    exact isShare_one

theorem clamp_of_isShare (h : IsShare x) : clamp x = x := by
  rcases clamp_cases (isNaN_of_le h.1).2 with ⟨hlow, -⟩ | ⟨-, heq⟩ | ⟨hhigh, -⟩
  · exact absurd h.1 (float_not_le_of_lt hlow)
  · exact heq
  · exact absurd h.2 (float_not_le_of_lt hhigh)

theorem clamp_mono (h : x ≤ y) : clamp x ≤ clamp y := by
  obtain ⟨hx, hy⟩ := isNaN_of_le h
  rcases clamp_cases hx with ⟨-, heq⟩ | ⟨hshare, heq⟩ | ⟨hhigh, heq⟩
  · rw [heq]
    exact (isShare_clamp hy).1
  · rcases clamp_cases hy with ⟨hlow, -⟩ | ⟨-, heq'⟩ | ⟨-, heq'⟩
    · exact absurd (float_le_trans hshare.1 h) (float_not_le_of_lt hlow)
    · rwa [heq, heq']
    · rw [heq, heq']
      exact hshare.2
  · have hy' : 1 < y := float_lt_of_lt_of_le hhigh h
    rcases clamp_cases hy with ⟨hlow, -⟩ | ⟨hshare, -⟩ | ⟨-, heq'⟩
    · exact absurd (float_le_of_lt hy') (float_not_le_of_lt (float_lt_of_lt_of_le hlow isShare_one.1))
    · exact absurd hshare.2 (float_not_le_of_lt hy')
    · rw [heq, heq']
      exact isShare_one.2

theorem sub_antitone (hx : IsShare x) (hy : IsShare y) (h : x ≤ y) : 1 - y ≤ 1 - x :=
  float_sub_le_sub isFinite_one isFinite_one hy.isFinite hx.isFinite (float_le_refl isNearest_one.number) h

theorem isShare_sub (hx : IsShare x) : IsShare (1 - x) := by
  have hle := sub_antitone isShare_zero hx hx.1
  have hzero : (1 : Float) - 0 = 1 := by decide +kernel
  rw [hzero] at hle
  exact ⟨float_sub_nonneg hx.isFinite isFinite_one hx.2, hle⟩

theorem isShare_div {width : Float} (hwidth : width.isFinite) (hpos : 0 < width) (hzero : 0 ≤ x) (hle : x ≤ width) :
    IsShare (x / width) := by
  have hlower := float_div_le_div (float_le_refl isNearest_zeroFloat.number) hzero hwidth hpos
  have hupper := float_div_le_div hzero hle hwidth hpos
  rw [float_zero_div hpos] at hlower
  rw [float_div_self hwidth hpos] at hupper
  exact ⟨hlower, hupper⟩

end

section
variable {b : Bin} (hlo : b.lo.isFinite) (hhi : b.hi.isFinite)
include hlo hhi

/-- The division is for targets inside a bin only. Such a bin has a width. -/
theorem below_cases {t : Float} (ht : t.isNaN = false) :
    t ≤ b.lo ∧ below t b = 0 ∨ b.lo < t ∧ b.hi ≤ t ∧ below t b = 1 ∨
      b.lo < t ∧ t < b.hi ∧ 0 < b.hi - b.lo ∧ below t b = (t - b.lo) / (b.hi - b.lo) := by
  rw [below]
  by_cases hlow : t ≤ b.lo
  · exact .inl ⟨hlow, if_pos hlow⟩
  · rw [if_neg hlow]
    rw [float_not_le ht (isNaN_of_isFinite hlo)] at hlow
    by_cases hhigh : b.hi ≤ t
    · exact .inr (.inl ⟨hlow, hhigh, if_pos hhigh⟩)
    · rw [if_neg hhigh]
      rw [float_not_le (isNaN_of_isFinite hhi) ht] at hhigh
      exact .inr (.inr ⟨hlow, hhigh, float_sub_pos hlo hhi (float_lt_of_lt_of_le hlow (float_le_of_lt hhigh)), rfl⟩)

theorem sub_lo_mono {t₁ t₂ : Float} (hlow : b.lo ≤ t₁) (hle : t₁ ≤ t₂) (hhigh : t₂ ≤ b.hi) :
    0 ≤ t₁ - b.lo ∧ t₁ - b.lo ≤ t₂ - b.lo := by
  have h₁ := isFinite_of_between hlo hhi hlow (float_le_trans hle hhigh)
  have h₂ := isFinite_of_between hlo hhi (float_le_trans hlow hle) hhigh
  exact ⟨float_sub_nonneg hlo h₁ hlow, float_sub_le_sub h₁ h₂ hlo hlo hle (float_le_refl (isNaN_of_isFinite hlo))⟩

variable (hwidth : (b.hi - b.lo).isFinite)
include hwidth

theorem isShare_below {t : Float} (ht : t.isNaN = false) : IsShare (below t b) := by
  rcases below_cases hlo hhi ht with ⟨-, heq⟩ | ⟨-, -, heq⟩ | ⟨hlow, hhigh, hpos, heq⟩
  · rw [heq]
    exact isShare_zero
  · rw [heq]
    exact isShare_one
  · have hself := float_le_refl (isNaN_of_isFinite hhi)
    obtain ⟨hzero, hle⟩ := sub_lo_mono hlo hhi (float_le_of_lt hlow) (float_le_of_lt hhigh) hself
    rw [heq]
    exact isShare_div hwidth hpos hzero hle

/-- Targets on different sides of an edge leave none of the bin, or all of it, to one of them. -/
theorem below_mono {t₁ t₂ : Float} (h : t₁ ≤ t₂) : below t₁ b ≤ below t₂ b := by
  obtain ⟨h₁, h₂⟩ := isNaN_of_le h
  have hshare₁ := isShare_below hlo hhi hwidth h₁
  have hshare₂ := isShare_below hlo hhi hwidth h₂
  rcases below_cases hlo hhi h₁ with ⟨-, heq₁⟩ | ⟨hlow₁, hhigh₁, -⟩ | ⟨hlow₁, hhigh₁, hpos, heq₁⟩
  · rw [heq₁]
    exact hshare₂.1
  · rcases below_cases hlo hhi h₂ with ⟨hlow₂, -⟩ | ⟨-, -, heq₂⟩ | ⟨-, hhigh₂, -⟩
    · exact absurd (float_le_trans h hlow₂) (float_not_le_of_lt hlow₁)
    · rw [heq₂]
      exact hshare₁.2
    · exact absurd (float_le_trans hhigh₁ h) (float_not_le_of_lt hhigh₂)
  · rcases below_cases hlo hhi h₂ with ⟨hlow₂, -⟩ | ⟨-, -, heq₂⟩ | ⟨hlow₂, hhigh₂, -, heq₂⟩
    · exact absurd (float_le_trans h hlow₂) (float_not_le_of_lt hlow₁)
    · rw [heq₂]
      exact hshare₁.2
    · obtain ⟨hzero, hle⟩ := sub_lo_mono hlo hhi (float_le_of_lt hlow₁) h (float_le_of_lt hhigh₂)
      rw [heq₁, heq₂]
      exact float_div_le_div hzero hle hwidth hpos

end

section
variable {n : ℕ} (hn : n < UInt64.size) {x y : Float}
include hn

theorem count_mul_mono (hx : IsShare x) (hy : IsShare y) (h : x ≤ y) : Float.ofNat n * x ≤ Float.ofNat n * y :=
  float_mul_le_mul_left (isFinite_ofNat hn.le) hx.isFinite hy.isFinite (ofNat_nonneg n) h

theorem count_mul_share (hx : IsShare x) : 0 ≤ Float.ofNat n * x ∧ (Float.ofNat n * x).isFinite := by
  have hfinite : (Float.ofNat n).isFinite := isFinite_ofNat hn.le
  have hlower := float_mul_nonneg hfinite hx.isFinite (ofNat_nonneg n) hx.1
  have hupper := count_mul_mono hn hx isShare_one hx.2
  rw [ofNat_mul_one hn.le] at hupper
  exact ⟨hlower, isFinite_of_between isFinite_zero hfinite hlower hupper⟩

end

/-- The sums along the bins keep the order of their terms. They may be rounded, and even reach infinity. -/
theorem foldl_add_mono {bins : List Bin} {f g : Bin → Float}
    (hterms : ∀ b ∈ bins, (0 ≤ f b ∧ (f b).isFinite) ∧ (g b).isFinite ∧ f b ≤ g b) {x y : Float} (hx : 0 ≤ x)
    (hxy : x ≤ y) :
    0 ≤ bins.foldl (fun sum b => sum + f b) x ∧
      bins.foldl (fun sum b => sum + f b) x ≤ bins.foldl (fun sum b => sum + g b) y := by
  -- the first terms may differ, so the sums before the other terms do
  induction bins generalizing x y with
  | nil => exact ⟨hx, hxy⟩
  | cons b bins ih =>
    obtain ⟨⟨hnonneg, hf⟩, hg, hle⟩ := hterms b List.mem_cons_self
    exact ih (fun d hd => hterms d (List.mem_cons_of_mem b hd)) (float_add_nonneg hx hnonneg hf)
      (float_add_le_add hx hxy hf hg hle)

/-- A record of numbers that are counted in bins. The edges need not ascend. -/
structure Binned (r : Record) : Prop where
  numeric : r.type ≠ .string
  count_pos : 0 < r.count
  count_lt : r.count < UInt64.size
  storable : r.histogram.Storable
  isEmpty_eq : r.histogram.isEmpty = false
  width_finite : ∀ b ∈ r.histogram.bins, (b.hi - b.lo).isFinite

instance (r : Record) : Decidable r.Binned :=
  decidable_of_iff (r.type ≠ .string ∧ 0 < r.count ∧ r.count < UInt64.size ∧ r.histogram.Storable ∧
      r.histogram.isEmpty = false ∧ ∀ b ∈ r.histogram.bins, (b.hi - b.lo).isFinite)
    ⟨fun ⟨ht, hp, hc, hs, he, hw⟩ => ⟨ht, hp, hc, hs, he, hw⟩, fun ⟨ht, hp, hc, hs, he, hw⟩ => ⟨ht, hp, hc, hs, he, hw⟩⟩

section
variable {r : Record} (hcount : r.count ≠ 0) (hnumeric : r.type ≠ .string) {op : Comparison}
  (hop : op ≠ .eq ∧ op ≠ .ne) {v : Value} {t : Float} (hv : v.number? = some t)
include hcount hnumeric hop hv

theorem estimate_of_range :
    r.estimate op v =
      if r.histogram.isEmpty then r.least.map fun only => if op.holds only.toFloat t then 1 else 0
      else some (r.interpolate op t) := by
  rw [estimate, if_neg hcount, if_neg hnumeric, hv, Option.bind_some]
  cases op with
  | eq => exact absurd rfl hop.1
  | ne => exact absurd rfl hop.2
  | lt | le | gt | ge => rfl

theorem estimate_eq_interpolate (hbins : r.histogram.isEmpty = false) :
    r.estimate op v = some (r.interpolate op t) := by
  rw [estimate_of_range hcount hnumeric hop hv, if_neg (Bool.eq_false_iff.1 hbins)]

theorem estimate_of_isEmpty (hbins : r.histogram.isEmpty = true) {only : Bound} (honly : r.least = some only) :
    r.estimate op v = some (if op.holds only.toFloat t then 1 else 0) := by
  rw [estimate_of_range hcount hnumeric hop hv, if_pos hbins, honly, Option.map_some]

end

theorem mem_bins {h : Histogram} {b : Bin} (hb : b ∈ h.bins) :
    b.lo ∈ h.edges ∧ b.hi ∈ h.edges ∧ b.count ∈ h.counts := by
  rw [Histogram.bins, ← List.map_uncurry_zip_eq_zipWith, List.mem_map] at hb
  obtain ⟨⟨⟨lo, hi⟩, count⟩, hmem, rfl⟩ := hb
  obtain ⟨hedges, hcount⟩ := List.of_mem_zip hmem
  obtain ⟨hlo, hhi⟩ := List.of_mem_zip hedges
  exact ⟨hlo, List.mem_of_mem_tail hhi, hcount⟩

section
variable {r : Record} (hr : r.Binned)
include hr

section
variable {b : Bin} (hb : b ∈ r.histogram.bins)
include hb

theorem Binned.lo_finite : b.lo.isFinite := hr.storable.edges b.lo (mem_bins hb).1

theorem Binned.hi_finite : b.hi.isFinite := hr.storable.edges b.hi (mem_bins hb).2.1

theorem Binned.isShare_fraction (op : Comparison) {t : Float} (ht : t.isNaN = false) : IsShare (fraction op t b) := by
  have hbelow := isShare_below (hr.lo_finite hb) (hr.hi_finite hb) (hr.width_finite b hb) ht
  cases op with
  | lt | le => exact hbelow
  | gt | ge => exact isShare_sub hbelow
  | eq | ne => exact isShare_zero

end

theorem Binned.interpolate_le {op op' : Comparison} {t t' : Float} (ht : t.isNaN = false) (ht' : t'.isNaN = false)
    (hparts : ∀ b ∈ r.histogram.bins, fraction op t b ≤ fraction op' t' b) :
    IsShare (r.interpolate op t) ∧ r.interpolate op t ≤ r.interpolate op' t' := by
  have hsum : 0 ≤ matching op t r.histogram.bins ∧
      matching op t r.histogram.bins ≤ matching op' t' r.histogram.bins := by
    apply foldl_add_mono _ (float_le_refl isNearest_zeroFloat.number) (float_le_refl isNearest_zeroFloat.number)
    intro b hb
    have hcount := hr.storable.counts b.count (mem_bins hb).2.2
    have hshare := hr.isShare_fraction hb op ht
    have hshare' := hr.isShare_fraction hb op' ht'
    rw [clamp_of_isShare hshare, clamp_of_isShare hshare']
    exact ⟨count_mul_share hcount hshare, (count_mul_share hcount hshare').2,
      count_mul_mono hcount hshare hshare' (hparts b hb)⟩
  have hquotient := float_div_le_div hsum.1 hsum.2 (isFinite_ofNat hr.count_lt.le) (ofNat_pos hr.count_pos)
  exact ⟨isShare_clamp (isNaN_of_le hquotient).1, clamp_mono hquotient⟩

theorem Binned.estimate_le {op op' : Comparison} (hop : op ≠ .eq ∧ op ≠ .ne) (hop' : op' ≠ .eq ∧ op' ≠ .ne)
    {v v' : Value} {t t' : Float} (hv : v.number? = some t) (hv' : v'.number? = some t') (ht : t.isNaN = false)
    (ht' : t'.isNaN = false) (hparts : ∀ b ∈ r.histogram.bins, fraction op t b ≤ fraction op' t' b) :
    ∃ x x', r.estimate op v = some x ∧ r.estimate op' v' = some x' ∧ IsShare x ∧ IsShare x' ∧ x ≤ x' := by
  have hle := hr.interpolate_le ht ht' hparts
  have hself : ∀ b ∈ r.histogram.bins, fraction op' t' b ≤ fraction op' t' b := by
    intro b hb
    exact float_le_refl (isNaN_of_isFinite (hr.isShare_fraction hb op' ht').isFinite)
  exact ⟨_, _, estimate_eq_interpolate hr.count_pos.ne' hr.numeric hop hv hr.isEmpty_eq,
    estimate_eq_interpolate hr.count_pos.ne' hr.numeric hop' hv' hr.isEmpty_eq, hle.1,
    (hr.interpolate_le ht' ht' hself).1, hle.2⟩

end

/-- With the target the estimates of `<` and `<=` grow and those of `>` and `>=` shrink, and all are shares, whatever
    edges the bins have. No target is divided by a width but inside the bin. -/
theorem estimate_range_mono {r : Record} (hr : r.Binned) {v₁ v₂ : Value} {t₁ t₂ : Float} (h₁ : v₁.number? = some t₁)
    (h₂ : v₂.number? = some t₂) (h : t₁ ≤ t₂) :
    (∀ op ∈ [Comparison.lt, .le], ∃ x₁ x₂, r.estimate op v₁ = some x₁ ∧ r.estimate op v₂ = some x₂ ∧
        IsShare x₁ ∧ IsShare x₂ ∧ x₁ ≤ x₂) ∧
      (∀ op ∈ [Comparison.gt, .ge], ∃ x₁ x₂, r.estimate op v₁ = some x₁ ∧ r.estimate op v₂ = some x₂ ∧
        IsShare x₁ ∧ IsShare x₂ ∧ x₂ ≤ x₁) ∧
      ∀ t : Float, t.isNaN = false → ∀ b ∈ r.histogram.bins,
        t ≤ b.lo ∧ below t b = 0 ∨ b.lo < t ∧ b.hi ≤ t ∧ below t b = 1 ∨
          b.lo < t ∧ t < b.hi ∧ 0 < b.hi - b.lo ∧ below t b = (t - b.lo) / (b.hi - b.lo) := by
  obtain ⟨hn₁, hn₂⟩ := isNaN_of_le h
  have hbelow : ∀ b ∈ r.histogram.bins, below t₁ b ≤ below t₂ b := fun b hb =>
    below_mono (hr.lo_finite hb) (hr.hi_finite hb) (hr.width_finite b hb) h
  have habove : ∀ b ∈ r.histogram.bins, 1 - below t₂ b ≤ 1 - below t₁ b := by
    intro b hb
    have hshare := fun {t : Float} => isShare_below (t := t) (hr.lo_finite hb) (hr.hi_finite hb) (hr.width_finite b hb)
    exact sub_antitone (hshare hn₁) (hshare hn₂) (hbelow b hb)
  refine ⟨?_, ?_, ?_⟩
  · intro op hop
    have hrange : op ≠ .eq ∧ op ≠ .ne := by
      rcases List.mem_pair.1 hop with rfl | rfl <;> decide
    have hparts : ∀ b ∈ r.histogram.bins, fraction op t₁ b ≤ fraction op t₂ b := by
      rcases List.mem_pair.1 hop with rfl | rfl <;> exact hbelow
    exact hr.estimate_le hrange hrange h₁ h₂ hn₁ hn₂ hparts
  · intro op hop
    have hrange : op ≠ .eq ∧ op ≠ .ne := by
      rcases List.mem_pair.1 hop with rfl | rfl <;> decide
    have hparts : ∀ b ∈ r.histogram.bins, fraction op t₂ b ≤ fraction op t₁ b := by
      rcases List.mem_pair.1 hop with rfl | rfl <;> exact habove
    obtain ⟨x₂, x₁, hx₂, hx₁, hshare₂, hshare₁, hle⟩ := hr.estimate_le hrange hrange h₂ h₁ hn₂ hn₁ hparts
    exact ⟨x₁, x₂, hx₁, hx₂, hshare₁, hshare₂, hle⟩
  · intro t ht b hb
    exact below_cases (hr.lo_finite hb) (hr.hi_finite hb) ht

/-- A record with one bin of no width and one whose edges descend. -/
theorem estimate_range_mono_disordered :
    let r : Record := { empty .float with count := 10, histogram := ⟨[0, 8, 8, 5, 7], [3, 0, 2, 5], ∅⟩ }
    r.Binned ∧ (Value.int 4).number? = some 4 ∧ (Value.float 6).number? = some 6 ∧ (4 : Float) ≤ 6 ∧
      r.estimate .lt (.int 4) = some 0.15 ∧ r.estimate .lt (.float 6) = some 0.475 ∧ (0.15 : Float) ≤ 0.475 ∧
      (∃ x₁ x₂, r.estimate .ge (.int 4) = some x₁ ∧ r.estimate .ge (.float 6) = some x₂ ∧ IsShare x₁ ∧ IsShare x₂ ∧
        x₂ ≤ x₁) ∧
      0 < (8 : Float) - 0 := by
  intro r
  have hbinned : r.Binned := by decide +kernel
  have hfour : (Value.int 4).number? = some 4 := by decide +kernel
  have hle : (4 : Float) ≤ 6 := by decide +kernel
  obtain ⟨hup, hdown, hparts⟩ := estimate_range_mono hbinned hfour (rfl : (Value.float 6).number? = some 6) hle
  have hlow : r.estimate .lt (.int 4) = some 0.15 := by decide +kernel
  have hhigh : r.estimate .lt (.float 6) = some 0.475 := by decide +kernel
  refine ⟨hbinned, hfour, rfl, hle, hlow, hhigh, ?_, hdown .ge (by decide), ?_⟩
  · obtain ⟨x₁, x₂, hx₁, hx₂, -, -, hx⟩ := hup .lt (by decide)
    rw [hlow, Option.some.injEq] at hx₁
    rw [hhigh, Option.some.injEq] at hx₂
    rwa [hx₁, hx₂]
  · have hinside : ¬(4 : Float) ≤ 0 ∧ ¬(8 : Float) ≤ 4 := by decide +kernel
    rcases hparts 4 (by decide +kernel) ⟨0, 8, 3⟩ (by decide +kernel) with ⟨hlo, -⟩ | ⟨-, hhi, -⟩ | ⟨-, -, hpos, -⟩
    · exact absurd hlo hinside.1
    · exact absurd hhi hinside.2
    · exact hpos

end GraphProfile.Record
