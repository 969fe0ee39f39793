import GraphProfile.Proofs.FloatArithmetic

set_option autoImplicit false

namespace GraphProfile.Decimal
open Float.Model.UnpackedFloat
open Binary

theorem unpack_of_pos {x : Float} (hx : x.isFinite) (hpos : 0 < x) :
    ∃ m e, ∃ h : Canonical m e, x.toModel.unpack = .finite .positive m e h.pos := by
  have hpos := toRat_pos hx hpos
  rcases finite_unpack hx with ⟨s, hzero⟩ | ⟨s, m, e, h, hfinite⟩
  · rw [toRat_of_zero hzero] at hpos
    exact absurd hpos (lt_irrefl 0)
  · cases s with
    | positive => exact ⟨m, e, h, hfinite⟩
    | negative =>
      have hm : (0 : ℚ) < m := by exact_mod_cast h.pos
      have hneg : factor .negative * (m * 2 ^ e : ℚ) < 0 := by
        rw [factor, neg_one_mul, neg_lt_zero]
        positivity
      rw [toRat_of_finite hfinite] at hpos
      exact absurd hpos hneg.not_gt

theorem float_mul_zero {x : Float} (hx : x.isFinite) (hpos : 0 < x) : x * 0 = 0 := by
  have hproduct : x * 0 = ofUnpacked (mul .binary64 x.toModel.unpack (0 : Float).toModel.unpack) := rfl
  obtain ⟨m, e, h, hxu⟩ := unpack_of_pos hx hpos
  rw [hproduct, hxu, zero_eq, unpack_ofUnpacked_zero]
  rfl

theorem unpack_infinity : infinity.toModel.unpack = .infinity .positive := by
  rw [infinity_eq, unpack_ofUnpacked_infinity]

theorem float_zero_div {x : Float} (hpos : 0 < x) : 0 / x = 0 := by
  have hquotient : 0 / x = ofUnpacked (div .binary64 (0 : Float).toModel.unpack x.toModel.unpack) := rfl
  rcases isFinite_or_eq_infinity (float_le_of_lt hpos) with hx | rfl
  · obtain ⟨m, e, h, hxu⟩ := unpack_of_pos hx hpos
    rw [hquotient, hxu, zero_eq, unpack_ofUnpacked_zero]
    rfl
  · rw [hquotient, unpack_infinity, zero_eq, unpack_ofUnpacked_zero]
    rfl

section
variable {x x' y y' d : Float}

theorem infinity_add (hy : y.isFinite) : infinity + y = infinity := by
  have hsum : infinity + y = ofUnpacked (add .binary64 infinity.toModel.unpack y.toModel.unpack) := rfl
  rw [hsum, unpack_infinity, infinity_eq]
  rcases finite_unpack hy with ⟨t, hyu⟩ | ⟨t, n, f, hn, hyu⟩
  · rw [hyu]
    rfl
  · rw [hyu]
    rfl

theorem add_infinity (hx : x.isFinite) : x + infinity = infinity := by
  have hsum : x + infinity = ofUnpacked (add .binary64 x.toModel.unpack infinity.toModel.unpack) := rfl
  rw [hsum, unpack_infinity, infinity_eq]
  rcases finite_unpack hx with ⟨t, hxu⟩ | ⟨t, n, f, hn, hxu⟩
  · rw [hxu]
    rfl
  · rw [hxu]
    rfl

theorem infinity_div (hd : d.isFinite) (hpos : 0 < d) : infinity / d = infinity := by
  have hquotient : infinity / d = ofUnpacked (div .binary64 infinity.toModel.unpack d.toModel.unpack) := rfl
  obtain ⟨n, f, hn, hdu⟩ := unpack_of_pos hd hpos
  rw [hquotient, unpack_infinity, hdu, infinity_eq]
  rfl

theorem isNaN_add (hx : 0 ≤ x) (hy : y.isFinite) : (x + y).isNaN = false := by
  rcases isFinite_or_eq_infinity hx with hfinite | rfl
  · exact (isNearest_add hfinite hy).number
  · rw [infinity_add hy]
    exact isNaN_infinity

theorem float_add_le_add (hx : 0 ≤ x) (hxx : x ≤ x') (hy : y.isFinite) (hy' : y'.isFinite) (hyy : y ≤ y') :
    x + y ≤ x' + y' := by
  rcases isFinite_or_eq_infinity (float_le_trans hx hxx) with hfinite' | rfl
  · have hfinite : x.isFinite := isFinite_of_between isFinite_zero hfinite' hx hxx
    rw [le_iff_toRat hfinite hfinite'] at hxx
    rw [le_iff_toRat hy hy'] at hyy
    exact (isNearest_add hfinite hy).le (isNearest_add hfinite' hy') (add_le_add hxx hyy)
  · rw [infinity_add hy']
    exact le_infinity (isNaN_add hx hy)

theorem float_add_le_add_left (hx : x.isFinite) (hy : 0 ≤ y) (hyy : y ≤ y') : x + y ≤ x + y' := by
  rcases isFinite_or_eq_infinity (float_le_trans hy hyy) with hfinite' | rfl
  · have hfinite : y.isFinite := isFinite_of_between isFinite_zero hfinite' hy hyy
    rw [le_iff_toRat hfinite hfinite'] at hyy
    exact (isNearest_add hx hfinite).le (isNearest_add hx hfinite') (by linarith)
  · rw [add_infinity hx]
    rcases isFinite_or_eq_infinity hy with hfinite | rfl
    · exact le_infinity (isNearest_add hx hfinite).number
    · rw [add_infinity hx]
      exact float_le_refl isNaN_infinity

theorem float_le_add (hx : x.isFinite) (hy : 0 ≤ y) : x ≤ x + y := by
  have hself := (isNearest_self hx).le (isNearest_add hx isFinite_zero) (by rw [toRat_zero, add_zero])
  exact float_le_trans hself (float_add_le_add_left hx (float_le_refl (isNaN_of_isFinite isFinite_zero)) hy)

theorem float_add_le (hx : x.isFinite) (hy : 0 ≤ y) (hzero : y ≤ 0) : x + y ≤ x := by
  have hself := (isNearest_add hx isFinite_zero).le (isNearest_self hx) (by rw [toRat_zero, add_zero])
  exact float_le_trans (float_add_le_add_left hx hy hzero) hself

theorem float_div_le_div (hx : 0 ≤ x) (hxx : x ≤ x') (hd : d.isFinite) (hpos : 0 < d) : x / d ≤ x' / d := by
  have hpos' := toRat_pos hd hpos
  rcases isFinite_or_eq_infinity (float_le_trans hx hxx) with hfinite' | rfl
  · have hfinite : x.isFinite := isFinite_of_between isFinite_zero hfinite' hx hxx
    rw [le_iff_toRat hfinite hfinite'] at hxx
    exact (isNearest_div hfinite hd hpos'.ne').le (isNearest_div hfinite' hd hpos'.ne')
      (div_le_div_of_nonneg_right hxx hpos'.le)
  · rw [infinity_div hd hpos]
    rcases isFinite_or_eq_infinity hx with hfinite | rfl
    · exact le_infinity (isNearest_div hfinite hd hpos'.ne').number
    · rw [infinity_div hd hpos]
      exact float_le_refl isNaN_infinity

section
variable (hx : x.isFinite) (hx' : x'.isFinite) (hy : y.isFinite) (hy' : y'.isFinite)
include hx hx' hy hy'

theorem float_sub_le_sub (hxx : x ≤ x') (hyy : y' ≤ y) : x - y ≤ x' - y' := by
  rw [le_iff_toRat hx hx'] at hxx
  rw [le_iff_toRat hy' hy] at hyy
  exact (isNearest_sub hx hy).le (isNearest_sub hx' hy') (sub_le_sub hxx hyy)

omit hx'

theorem float_mul_le_mul_left (hzero : 0 ≤ x) (hyy : y ≤ y') : x * y ≤ x * y' := by
  rw [le_iff_toRat isFinite_zero hx, toRat_zero] at hzero
  rw [le_iff_toRat hy hy'] at hyy
  exact (isNearest_mul hx hy).le (isNearest_mul hx hy') (mul_le_mul_of_nonneg_left hyy hzero)

end

end

theorem isNearest_ofNat (n : ℕ) : IsNearest (Float.ofNat n) n := by
  by_cases hn : n = 0
  · rw [hn, Nat.cast_zero]
    exact ⟨isNaN_of_isFinite isFinite_zero, place_zero⟩
  · have hpos : 0 < n := Nat.pos_of_ne_zero hn
    have hnearest := isNearest_positive (q := n) (by exact_mod_cast hpos)
    have hround := ofScientific_eq hpos (k := 0) false (by simp) (Nat.zero_le _) (by simp)
    rw [if_neg Bool.false_ne_true, pow_zero, mul_one] at hround
    rw [← hround] at hnearest
    exact hnearest

theorem isNearest_zeroFloat : IsNearest 0 0 := by
  have h := isNearest_ofNat 0
  rwa [Nat.cast_zero] at h

theorem isNearest_one : IsNearest 1 1 := by
  have h := isNearest_ofNat 1
  rwa [Nat.cast_one] at h

theorem isFinite_one : (1 : Float).isFinite := by decide +kernel

theorem float_zero_lt_one : (0 : Float) < 1 := by decide +kernel

theorem ofNat_le_ofNat {m n : ℕ} (h : m ≤ n) : Float.ofNat m ≤ Float.ofNat n :=
  (isNearest_ofNat m).le (isNearest_ofNat n) (by exact_mod_cast h)

theorem ofNat_nonneg (n : ℕ) : 0 ≤ Float.ofNat n := ofNat_le_ofNat (Nat.zero_le n)

theorem ofNat_pos {n : ℕ} (h : 0 < n) : 0 < Float.ofNat n :=
  float_lt_of_lt_of_le float_zero_lt_one (ofNat_le_ofNat h)

theorem isFinite_ofNat {n : ℕ} (h : n ≤ 2 ^ 64) : (Float.ofNat n).isFinite :=
  isFinite_of_between isFinite_zero (by decide +kernel : (Float.ofNat (2 ^ 64)).isFinite) (ofNat_nonneg n)
    (ofNat_le_ofNat h)

theorem isNearest_ofInt {z : ℤ} (h : z.natAbs ≤ 2 ^ 64) : IsNearest (Float.ofInt z) z ∧ (Float.ofInt z).isFinite := by
  cases z with
  | ofNat n => exact ⟨isNearest_ofNat n, isFinite_ofNat h⟩
  | negSucc n =>
    have hfinite : (Float.ofNat (n + 1)).isFinite := isFinite_ofNat h
    have hself := (isNearest_self hfinite).place_eq.symm.trans (isNearest_ofNat (n + 1)).place_eq
    have hneg := isNearest_self (isFinite_neg hfinite)
    refine ⟨⟨hneg.number, ?_⟩, isFinite_neg hfinite⟩
    rw [Int.cast_negSucc, nearestPlace_neg, ← hself, ← nearestPlace_neg, ← toRat_neg hfinite]
    exact hneg.place_eq

theorem toRat_ofNat {n : ℕ} (h : n ≤ 2 ^ 53) : toRat (Float.ofNat n) = n := by
  rcases Nat.eq_zero_or_pos n with rfl | hpos
  · exact toRat_zero.trans Nat.cast_zero.symm
  · obtain ⟨m, e, hcanonical, hvalue⟩ : ∃ m e, Canonical m e ∧ (m * 2 ^ e : ℚ) = n := by
      rcases h.lt_or_eq with hlt | rfl
      · obtain ⟨m, e, hcanonical, -, -, -, hvalue⟩ := exists_canonical_whole hpos hlt
        exact ⟨m, e, hcanonical, hvalue⟩
      · exact ⟨2 ^ 52, 1, ⟨by norm_num, by norm_num, by norm_num, by norm_num, .inl le_rfl⟩, by norm_num⟩
    have hround := ofScientific_eq hpos (k := 0) false (by simp) (Nat.zero_le _) (by simp)
    rw [if_neg Bool.false_ne_true, pow_zero, mul_one, ← hvalue, nearest_of_canonical .positive hcanonical] at hround
    have hunpack := congrArg (fun x => x.toModel.unpack) hround
    have htoRat := toRat_of_finite (hunpack.trans (unpack_ofUnpacked_finite .positive hcanonical))
    rw [factor, one_mul, hvalue] at htoRat
    exact htoRat

theorem toRat_one : toRat 1 = 1 := (toRat_ofNat (by norm_num : 1 ≤ 2 ^ 53)).trans Nat.cast_one

theorem ofNat_add_ofNat {m n : ℕ} (h : m + n ≤ 2 ^ 53) : Float.ofNat m + Float.ofNat n = Float.ofNat (m + n) := by
  rcases Nat.eq_zero_or_pos (m + n) with hzero | hpos
  · obtain ⟨rfl, rfl⟩ := Nat.add_eq_zero_iff.1 hzero
    decide +kernel
  · have hsum := isNearest_add (isFinite_ofNat (by omega : m ≤ 2 ^ 64)) (isFinite_ofNat (by omega : n ≤ 2 ^ 64))
    have hwhole := isNearest_ofNat (m + n)
    rw [toRat_ofNat (by omega), toRat_ofNat (by omega), ← Nat.cast_add] at hsum
    exact (eq_of_place_of_ne (hwhole.place_eq.trans hsum.place_eq.symm) (place_ne_zero (ofNat_pos hpos))).symm

section
variable {x : Float} (hx : x.isFinite) (hpos : 0 < x)
include hx hpos

theorem float_mul_one : x * 1 = x := by
  have hproduct := isNearest_mul hx isFinite_one
  rw [toRat_one, mul_one] at hproduct
  exact (eq_of_place_of_ne ((isNearest_self hx).place_eq.trans hproduct.place_eq.symm) (place_ne_zero hpos)).symm

theorem float_div_self : x / x = 1 := by
  have hquotient := isNearest_div hx hx (toRat_pos hx hpos).ne'
  have hplace := place_ne_zero float_zero_lt_one
  rw [div_self (toRat_pos hx hpos).ne'] at hquotient
  exact (eq_of_place_of_ne (isNearest_one.place_eq.trans hquotient.place_eq.symm) hplace).symm

end

section
variable {n : ℕ} (h : n ≤ 2 ^ 64)
include h

theorem ofNat_mul_one : Float.ofNat n * 1 = Float.ofNat n := by
  rcases Nat.eq_zero_or_pos n with rfl | hpos
  · decide +kernel
  · exact float_mul_one (isFinite_ofNat h) (ofNat_pos hpos)

theorem ofNat_mul_zero : Float.ofNat n * 0 = 0 := by
  rcases Nat.eq_zero_or_pos n with rfl | hpos
  · decide +kernel
  · exact float_mul_zero (isFinite_ofNat h) (ofNat_pos hpos)

end

section
variable {x y : Float}

theorem float_add_nonneg (hx : 0 ≤ x) (hy : 0 ≤ y) (hfinite : y.isFinite) : 0 ≤ x + y := by
  have hsum := float_add_le_add (float_le_refl isNearest_zeroFloat.number) hx isFinite_zero hfinite hy
  have hzero : (0 : Float) + 0 = 0 := ofNat_add_ofNat (by norm_num : 0 + 0 ≤ 2 ^ 53)
  rwa [hzero] at hsum

variable (hx : x.isFinite) (hy : y.isFinite)
include hx hy

theorem float_sub_nonneg (h : x ≤ y) : 0 ≤ y - x := by
  rw [le_iff_toRat hx hy] at h
  exact isNearest_zeroFloat.le (isNearest_sub hy hx) (sub_nonneg.2 h)

theorem float_mul_nonneg (hzero : 0 ≤ x) (hzero' : 0 ≤ y) : 0 ≤ x * y := by
  rw [le_iff_toRat isFinite_zero hx, toRat_zero] at hzero
  rw [le_iff_toRat isFinite_zero hy, toRat_zero] at hzero'
  exact isNearest_zeroFloat.le (isNearest_mul hx hy) (mul_nonneg hzero hzero')

end

/-- Finite floats are whole numbers of the least unit. -/
theorem exists_units {x : Float} (hx : x.isFinite) : ∃ z : ℤ, toRat x = z * 2 ^ (-1074 : ℤ) := by
  rcases finite_unpack hx with ⟨s, hzero⟩ | ⟨s, m, e, h, hfinite⟩
  · exact ⟨0, by rw [toRat_of_zero hzero, Int.cast_zero, zero_mul]⟩
  · obtain ⟨n, hn⟩ := Int.le.dest h.minimal
    have hcast : ((s.apply (m * 2 ^ n) : ℤ) : ℚ) = factor s * (m * 2 ^ n) := by
      rw [cast_apply]
      push_cast
      rfl
    refine ⟨s.apply (m * 2 ^ n), ?_⟩
    rw [toRat_of_finite hfinite, hcast, ← hn, zpow_add₀ two_ne_zero, zpow_natCast]
    ring

theorem nearestPlace_pos {q : ℚ} (h : (1 : ℕ) * 2 ^ (-1074 : ℤ) ≤ q) : 0 < nearestPlace q := by
  have hcanonical : Canonical 1 (-1074) := ⟨by norm_num, by norm_num, by norm_num, by norm_num, .inr rfl⟩
  have hleast := (isNearest_positive (q := (1 : ℕ) * 2 ^ (-1074 : ℤ)) (by positivity)).place_eq
  rw [nearest_of_canonical .positive hcanonical, place_ofUnpacked_finite .positive hcanonical] at hleast
  have hone : nearestPlace ((1 : ℕ) * 2 ^ (-1074 : ℤ)) = 1 := hleast.symm.trans (by decide)
  have hmono := nearestPlace_mono h
  omega

/-- The difference of two floats is a unit at least, so it is not rounded to zero. -/
theorem float_sub_pos {x y : Float} (hx : x.isFinite) (hy : y.isFinite) (h : x < y) : 0 < y - x := by
  have hdifference := isNearest_sub hy hx
  obtain ⟨a, ha⟩ := exists_units hx
  obtain ⟨b, hb⟩ := exists_units hy
  rw [lt_iff_toRat hx hy, ha, hb] at h
  have hunit : (0 : ℚ) < 2 ^ (-1074 : ℤ) := by positivity
  have hab : a < b := by exact_mod_cast lt_of_mul_lt_mul_right h hunit.le
  have hstep : (a + 1 : ℚ) ≤ b := by exact_mod_cast hab
  rw [lt_iff_place isNearest_zeroFloat.number hdifference.number, place_zero, hdifference.place_eq, ha, hb, ← sub_mul]
  apply nearestPlace_pos
  rw [Nat.cast_one]
  exact mul_le_mul_of_nonneg_right (by linarith) hunit.le

end GraphProfile.Decimal
