import GraphProfile.Proofs.Nearest
import GraphProfile.Proofs.RoundedPlaces

set_option autoImplicit false

namespace GraphProfile.Decimal
open Float.Model (Format UnpackedFloat totalExponent)
open Float.Model.UnpackedFloat
open Binary

def factor : Sign → ℚ
  | .positive => 1
  | .negative => -1

def numberOf : UnpackedFloat → ℚ
  | .finite s m e _ => factor s * (m * 2 ^ e)
  | _ => 0

def toRat (x : Float) : ℚ := numberOf x.toModel.unpack

/-- No float is nearer to the number, and where two are equally near, rules of rounding choose this one. -/
structure IsNearest (x : Float) (q : ℚ) : Prop where
  number : x.isNaN = false
  place_eq : place x = nearestPlace q

theorem finite_unpack {x : Float} (hx : x.isFinite) :
    (∃ s, x.toModel.unpack = .zero s) ∨ ∃ s m e, ∃ h : Canonical m e, x.toModel.unpack = .finite s m e h.pos := by
  rcases finite_cases hx with ⟨hself, -⟩ | ⟨h, hself⟩
  · have hunpack := congrArg (fun y => y.toModel.unpack) hself
    exact .inl ⟨_, hunpack.trans (unpack_ofUnpacked_zero _)⟩
  · have hunpack := congrArg (fun y => y.toModel.unpack) hself
    exact .inr ⟨_, _, _, h, hunpack.trans (unpack_ofUnpacked_finite _ h)⟩

theorem isNearest_zero (s : Sign) : IsNearest (ofUnpacked (.zero s)) 0 :=
  ⟨congrArg isNaN (unpack_ofUnpacked_zero s), place_ofUnpacked_zero s⟩

theorem isNearest_positive {q : ℚ} (hq : 0 < q) : IsNearest (ofUnpacked (nearest .positive q)) q := by
  refine ⟨isNaN_nearest _ _, ?_⟩
  rw [place_nearest _ hq, nearestPlace, if_pos hq]

theorem isNearest_negative {q : ℚ} (hq : 0 < q) : IsNearest (ofUnpacked (nearest .negative q)) (-q) := by
  refine ⟨isNaN_nearest _ _, ?_⟩
  rw [place_nearest _ hq, nearestPlace_neg, nearestPlace, if_pos hq]
  rfl

theorem isNearest_signed (s : Sign) {q : ℚ} (hq : 0 < q) : IsNearest (ofUnpacked (nearest s q)) (factor s * q) := by
  cases s with
  | positive => exact (one_mul q).symm ▸ isNearest_positive hq
  | negative => exact (neg_one_mul q).symm ▸ isNearest_negative hq

theorem isNearest_normalize (z e : ℤ) (s : Sign) :
    IsNearest (ofUnpacked (UnpackedFloat.normalize .binary64 z e s)) (z * 2 ^ e) := by
  have hscale : (0 : ℚ) < 2 ^ e := by positivity
  rw [normalize_eq]
  rcases lt_trichotomy z 0 with hz | rfl | hz
  · have hpos : (0 : ℚ) < -z * 2 ^ e := mul_pos (by exact_mod_cast neg_pos.2 hz) hscale
    have hnearest := isNearest_negative hpos
    rw [if_neg (by omega), if_pos hz]
    rwa [neg_mul, neg_neg, ← neg_mul] at hnearest
  · rw [if_neg (by omega), if_neg (by omega), Int.cast_zero, zero_mul]
    exact isNearest_zero s
  · have hpos : (0 : ℚ) < z * 2 ^ e := mul_pos (by exact_mod_cast hz) hscale
    rw [if_pos hz]
    exact isNearest_positive hpos

theorem isNearest_self {x : Float} (hx : x.isFinite) : IsNearest x (toRat x) := by
  have hself := ofUnpacked_unpack x
  rw [toRat]
  rcases finite_unpack hx with ⟨s, hzero⟩ | ⟨s, m, e, h, hfinite⟩
  · rw [hzero] at hself ⊢
    rw [← hself]
    exact isNearest_zero s
  · have hm : (0 : ℚ) < m := by exact_mod_cast h.pos
    have hnearest := isNearest_signed s (mul_pos hm (by positivity : (0 : ℚ) < 2 ^ e))
    rw [hfinite] at hself ⊢
    rw [← hself]
    rwa [nearest_of_canonical s h] at hnearest

theorem toRat_of_zero {x : Float} {s : Sign} (h : x.toModel.unpack = .zero s) : toRat x = 0 := by
  rw [toRat, h]
  rfl

theorem toRat_of_finite {x : Float} {s : Sign} {m : ℕ} {e : ℤ} {hm : 0 < m} (h : x.toModel.unpack = .finite s m e hm) :
    toRat x = factor s * (m * 2 ^ e) := by
  rw [toRat, h]
  rfl

section
variable (s t : Sign)

theorem factor_neg : factor (-s) = -factor s := by
  cases s with
  | positive => rfl
  | negative => exact (neg_neg 1).symm

theorem factor_mul : factor (s * t) = factor s * factor t := by
  cases s with
  | positive =>
    cases t with
    | positive => exact (one_mul (1 : ℚ)).symm
    | negative => exact (one_mul (-1 : ℚ)).symm
  | negative =>
    cases t with
    | positive => exact (mul_one (-1 : ℚ)).symm
    | negative => exact (by norm_num : (1 : ℚ) = -1 * -1)

theorem factor_div : factor (s / t) = factor s / factor t := by
  have hsame : factor (s / t) = factor (s * t) := by
    cases s <;> cases t <;> rfl
  have hinverse : factor t = (factor t)⁻¹ := by
    cases t <;> norm_num [factor]
  rw [hsame, factor_mul, div_eq_mul_inv, ← hinverse]

theorem cast_apply (z : ℤ) : (s.apply z : ℚ) = factor s * z := by
  cases s with
  | positive => exact (one_mul (z : ℚ)).symm
  | negative => exact (Int.cast_neg z).trans (neg_one_mul (z : ℚ)).symm

end

theorem decreaseExponent_value (m : ℕ) {e t : ℤ} (h : t ≤ e) :
    ((decreaseExponent m e t).1 : ℚ) * 2 ^ t = m * 2 ^ e := by
  have he : (2 : ℚ) ^ e = 2 ^ (e - t).toNat * 2 ^ t := by
    rw [← zpow_natCast, ← zpow_add₀ two_ne_zero, Int.toNat_of_nonneg (by omega), sub_add_cancel]
  have hm : ((decreaseExponent m e t).1 : ℚ) = m * 2 ^ (e - t).toNat := by
    rw [decreaseExponent, Nat.shiftLeft_eq]
    push_cast
    rfl
  rw [hm, he, mul_assoc]

theorem sub_eq_add_neg_float (x y : Float) : x - y = x + -y := by
  have hunpacked : ∀ u v : UnpackedFloat, UnpackedFloat.sub .binary64 u v = add .binary64 u v.neg := by
    intro u v
    rcases u with s | _ | s | ⟨s, m, e, hm⟩ <;> rcases v with t | _ | t | ⟨t, n, f, hn⟩ <;> try rfl
    cases t with
    | positive => rfl
    | negative =>
      exact congrArg (UnpackedFloat.normalize .binary64 · (min e f) .positive) (sub_neg_eq_add _ _)
  have hsum : x + -y = ofUnpacked (add .binary64 x.toModel.unpack (-y).toModel.unpack) := rfl
  rw [hsum, unpack_neg, ← hunpacked]
  rfl

section
variable {x y : Float} (hx : x.isFinite) (hy : y.isFinite)
include hy

theorem isFinite_neg : (-y).isFinite := by
  rw [isFinite_eq, unpack_neg]
  rcases finite_unpack hy with ⟨t, hyu⟩ | ⟨t, n, f, hn, hyu⟩
  · rw [hyu]
    rfl
  · rw [hyu]
    rfl

theorem toRat_neg : toRat (-y) = -toRat y := by
  rw [toRat, unpack_neg]
  rcases finite_unpack hy with ⟨t, hyu⟩ | ⟨t, n, f, hn, hyu⟩
  · rw [toRat_of_zero hyu, hyu, neg_zero]
    rfl
  · rw [toRat_of_finite hyu, hyu, ← neg_mul, ← factor_neg]
    rfl

include hx

theorem isNearest_add : IsNearest (x + y) (toRat x + toRat y) := by
  have hsum : x + y = ofUnpacked (add .binary64 x.toModel.unpack y.toModel.unpack) := rfl
  rcases finite_unpack hx with ⟨s, hxu⟩ | ⟨s, m, e, hm, hxu⟩
  · rcases finite_unpack hy with ⟨t, hyu⟩ | ⟨t, n, f, hn, hyu⟩
    · rw [hsum, toRat_of_zero hxu, toRat_of_zero hyu, hxu, hyu, add_zero]
      cases s <;> cases t <;> exact isNearest_zero _
    · have hsame : add .binary64 x.toModel.unpack y.toModel.unpack = y.toModel.unpack := by
        rw [hxu, hyu]
        rfl
      rw [hsum, hsame, ofUnpacked_unpack, toRat_of_zero hxu, zero_add]
      exact isNearest_self hy
  · rcases finite_unpack hy with ⟨t, hyu⟩ | ⟨t, n, f, hn, hyu⟩
    · have hsame : add .binary64 x.toModel.unpack y.toModel.unpack = x.toModel.unpack := by
        rw [hxu, hyu]
        rfl
      rw [hsum, hsame, ofUnpacked_unpack, toRat_of_zero hyu, add_zero]
      exact isNearest_self hx
    · -- both are brought to the smaller exponent, where their whole numbers are added
      have hnormal := isNearest_normalize
        (s.apply (decreaseExponent m e (min e f)).1 + t.apply (decreaseExponent n f (min e f)).1) (min e f) .positive
      rw [hsum, toRat_of_finite hxu, toRat_of_finite hyu, hxu, hyu, ← decreaseExponent_value m (min_le_left e f),
        ← decreaseExponent_value n (min_le_right e f), ← mul_assoc, ← mul_assoc, ← add_mul]
      rw [Int.cast_add, cast_apply, cast_apply, Int.cast_natCast, Int.cast_natCast] at hnormal
      exact hnormal

theorem isNearest_sub : IsNearest (x - y) (toRat x - toRat y) := by
  rw [sub_eq_add_neg_float, sub_eq_add_neg, ← toRat_neg hy]
  exact isNearest_add hx (isFinite_neg hy)

theorem isNearest_mul : IsNearest (x * y) (toRat x * toRat y) := by
  have hproduct : x * y = ofUnpacked (mul .binary64 x.toModel.unpack y.toModel.unpack) := rfl
  rcases finite_unpack hx with ⟨s, hxu⟩ | ⟨s, m, e, hm, hxu⟩
  · rw [hproduct, toRat_of_zero hxu, zero_mul]
    rcases finite_unpack hy with ⟨t, hyu⟩ | ⟨t, n, f, hn, hyu⟩
    · rw [hxu, hyu]
      exact isNearest_zero _
    · rw [hxu, hyu]
      exact isNearest_zero _
  · rcases finite_unpack hy with ⟨t, hyu⟩ | ⟨t, n, f, hn, hyu⟩
    · rw [hproduct, toRat_of_zero hyu, mul_zero, hxu, hyu]
      exact isNearest_zero _
    · have hm' : (0 : ℚ) < m := by exact_mod_cast hm.pos
      have hn' : (0 : ℚ) < n := by exact_mod_cast hn.pos
      have hnearest := isNearest_signed (s * t) (by positivity : (0 : ℚ) < m * 2 ^ e * (n * 2 ^ f))
      rw [hproduct, toRat_of_finite hxu, toRat_of_finite hyu, hxu, hyu, mul_mul_mul_comm, ← factor_mul,
        mul_finite s t hm.pos hn.pos (hm.le_unitExponent_mul hn)]
      exact hnearest

theorem isNearest_div (hne : toRat y ≠ 0) : IsNearest (x / y) (toRat x / toRat y) := by
  have hquotient : x / y = ofUnpacked (div .binary64 x.toModel.unpack y.toModel.unpack) := rfl
  rcases finite_unpack hy with ⟨t, hyu⟩ | ⟨t, n, f, hn, hyu⟩
  · exact absurd (toRat_of_zero hyu) hne
  · rcases finite_unpack hx with ⟨s, hxu⟩ | ⟨s, m, e, hm, hxu⟩
    · rw [hquotient, toRat_of_zero hxu, zero_div, hxu, hyu]
      exact isNearest_zero _
    · have hm' : (0 : ℚ) < m := by exact_mod_cast hm.pos
      have hn' : (0 : ℚ) < n := by exact_mod_cast hn.pos
      have hnearest := isNearest_signed (s / t) (by positivity : (0 : ℚ) < m * 2 ^ e / (n * 2 ^ f))
      rw [hquotient, toRat_of_finite hxu, toRat_of_finite hyu, hxu, hyu, mul_div_mul_comm, ← factor_div,
        div_finite s t hm.pos hn.pos]
      exact hnearest

end

theorem IsNearest.le {x y : Float} {p q : ℚ} (hx : IsNearest x p) (hy : IsNearest y q) (h : p ≤ q) : x ≤ y := by
  rw [le_iff_place hx.number hy.number, hx.place_eq, hy.place_eq]
  exact nearestPlace_mono h

theorem toRat_zero : toRat 0 = 0 := by
  rw [zero_eq]
  exact toRat_of_zero (unpack_ofUnpacked_zero .positive)

theorem toRat_eq_of_place {x y : Float} (h : place x = place y) : toRat x = toRat y := by
  have hnegZero : toRat (-0) = toRat 0 := by
    rw [toRat_neg isFinite_zero, toRat_zero, neg_zero]
  by_cases heq : x = y
  · rw [heq]
  · rcases (zeros_of_place h heq).2 with ⟨rfl, rfl⟩ | ⟨rfl, rfl⟩
    · exact hnegZero.symm
    · exact hnegZero

section
variable {x y : Float} (hx : x.isFinite) (hy : y.isFinite)
include hx hy

theorem lt_iff_toRat : x < y ↔ toRat x < toRat y := by
  have hnx := isNaN_of_isFinite hx
  have hny := isNaN_of_isFinite hy
  constructor
  · intro hlt
    by_contra hle
    have hyx := (isNearest_self hy).le (isNearest_self hx) (not_lt.1 hle)
    exact float_not_le_of_lt hlt hyx
  · intro hlt
    have hxy := (isNearest_self hx).le (isNearest_self hy) hlt.le
    rw [le_iff_place hnx hny] at hxy
    rw [lt_iff_place hnx hny]
    refine lt_of_le_of_ne hxy ?_
    intro hplace
    rw [toRat_eq_of_place hplace] at hlt
    exact lt_irrefl _ hlt

theorem le_iff_toRat : x ≤ y ↔ toRat x ≤ toRat y := by
  rw [← not_lt, ← lt_iff_toRat hy hx, ← float_not_le (isNaN_of_isFinite hx) (isNaN_of_isFinite hy), not_not]

end

theorem toRat_pos {x : Float} (hx : x.isFinite) (hpos : 0 < x) : 0 < toRat x := by
  rwa [lt_iff_toRat isFinite_zero hx, toRat_zero] at hpos

theorem isFinite_or_infinite {x : Float} (h : x.isNaN = false) : x.isFinite ∨ x = infinity ∨ x = -infinity := by
  cases hfinite : x.isFinite with
  | true => exact .inl rfl
  | false =>
    have hcases := infinity_cases hfinite h
    split at hcases
    · exact .inr (.inr hcases)
    · exact .inr (.inl hcases)

theorem isFinite_of_between {x y z : Float} (hx : x.isFinite) (hz : z.isFinite) (hxy : x ≤ y) (hyz : y ≤ z) :
    y.isFinite := by
  have hny := (isNaN_of_le hxy).2
  rw [le_iff_place (isNaN_of_isFinite hx) hny] at hxy
  rw [le_iff_place hny (isNaN_of_isFinite hz)] at hyz
  rcases isFinite_or_infinite hny with hfinite | rfl | rfl
  · exact hfinite
  · have hlt := place_lt_infinity hz
    omega
  · have hlt := negInfinity_lt_place hx
    omega

/-- What is not below zero is finite, or it is the greatest float of all. -/
theorem isFinite_or_eq_infinity {x : Float} (h : 0 ≤ x) : x.isFinite ∨ x = infinity := by
  rcases isFinite_or_infinite (isNaN_of_le h).2 with hfinite | rfl | rfl
  · exact .inl hfinite
  · exact .inr rfl
  · exact absurd h (by decide +kernel)

theorem le_infinity {x : Float} (h : x.isNaN = false) : x ≤ infinity := by
  rcases isFinite_or_infinite h with hfinite | rfl | rfl
  · rw [le_iff_place h isNaN_infinity]
    exact (place_lt_infinity hfinite).le
  · exact float_le_refl h
  · decide +kernel

theorem place_ne_zero {x : Float} (hpos : 0 < x) : place x ≠ 0 := by
  rw [lt_iff_place (isNaN_of_isFinite isFinite_zero) (isNaN_of_lt hpos).2, place_zero] at hpos
  exact hpos.ne'

theorem eq_of_place_of_ne {x y : Float} (h : place x = place y) (hne : place x ≠ 0) : x = y := by
  by_contra hxy
  exact hne (zeros_of_place h hxy).1

end GraphProfile.Decimal
