import GraphProfile.Proofs.FloatOrder

set_option autoImplicit false

/-!
# Rounding ascends

The float nearest to a number stands in a place of its own on the number line, and a greater number is never rounded to
an earlier place. Beyond the greatest finite float that place is the one of infinity. A finite float is a rational
number itself and is where that number is rounded to, so finite floats are ordered as their numbers are.
-/
namespace GraphProfile.Binary
open Float.Model (Format UnpackedFloat totalExponent)
open Float.Model.UnpackedFloat

theorem halfEven_natCast (n : ℕ) : halfEven n = n := (roundedMantissa_eq (represents_exact n)).symm

theorem halfEven_near {y : ℚ} (hy : 0 ≤ y) : y - 1 / 2 ≤ halfEven y ∧ (halfEven y : ℚ) ≤ y + 1 / 2 := by
  have hfloor := Nat.floor_le hy
  have hlt := Nat.lt_floor_add_one y
  rw [halfEven]
  rcases lt_trichotomy (2 * (y - ⌊y⌋₊)) 1 with hside | hside | hside
  · rw [compare_lt_iff_lt.2 hside]
    constructor <;> linarith
  · have hbit : ((⌊y⌋₊ % 2 : ℕ) : ℚ) ≤ 1 := by exact_mod_cast Nat.lt_succ_iff.1 (Nat.mod_lt _ two_pos)
    have hbit' : (0 : ℚ) ≤ (⌊y⌋₊ % 2 : ℕ) := Nat.cast_nonneg _
    rw [compare_eq_iff_eq.2 hside]
    push_cast at hbit hbit' ⊢
    constructor <;> linarith
  · rw [compare_gt_iff_gt.2 hside]
    push_cast
    constructor <;> linarith

theorem halfEven_mono {x y : ℚ} (hx : 0 ≤ x) (h : x ≤ y) : halfEven x ≤ halfEven y := by
  by_contra hlt
  have hstep : (halfEven y : ℚ) + 1 ≤ halfEven x := by exact_mod_cast not_le.1 hlt
  have hupper := (halfEven_near hx).2
  have hlower := (halfEven_near (hx.trans h)).1
  have heq : x = y := by linarith
  rw [heq] at hlt
  exact hlt le_rfl

theorem unitExponent_mono {x y : ℚ} (hx : 0 < x) (h : x ≤ y) : unitExponent x ≤ unitExponent y := by
  have hlog := Int.log_mono_right (b := 2) hx h
  rw [unitExponent, unitExponent]
  omega

theorem units_lt (x : ℚ) : x / 2 ^ unitExponent x < 2 ^ 53 := by
  have hlt := Int.lt_zpow_succ_log_self (b := 2) one_lt_two x
  have hle : Int.log 2 x + 1 ≤ unitExponent x + (53 : ℕ) := by
    rw [unitExponent]
    omega
  rw [div_lt_iff₀ (by positivity), mul_comm, ← zpow_natCast, ← zpow_add₀ two_ne_zero]
  exact hlt.trans_le (zpow_le_zpow_right₀ one_le_two hle)

section
variable {x : ℚ} (hx : 0 < x)
include hx

/-- But for the least unit, numbers have as many units as fit. -/
theorem le_units (h : -1074 < unitExponent x) : 2 ^ 52 ≤ x / 2 ^ unitExponent x := by
  have hle := Int.zpow_log_le_self (b := 2) one_lt_two hx
  have hlog : (52 : ℕ) + unitExponent x = Int.log 2 x := by
    rw [unitExponent] at h ⊢
    omega
  rw [le_div_iff₀ (by positivity), ← zpow_natCast, ← zpow_add₀ two_ne_zero, hlog]
  exact hle

theorem units_nonneg : 0 ≤ x / 2 ^ unitExponent x := by positivity

theorem halfEven_units_le : halfEven (x / 2 ^ unitExponent x) ≤ 2 ^ 53 := by
  have hle := halfEven_mono (units_nonneg hx) (units_lt x).le
  have hpow : ((2 : ℚ) ^ 53) = ((2 ^ 53 : ℕ) : ℚ) := by push_cast; rfl
  rwa [hpow, halfEven_natCast] at hle

theorem le_halfEven_units (h : -1074 < unitExponent x) : 2 ^ 52 ≤ halfEven (x / 2 ^ unitExponent x) := by
  have hle := halfEven_mono (by positivity) (le_units hx h)
  have hpow : ((2 : ℚ) ^ 52) = ((2 ^ 52 : ℕ) : ℚ) := by push_cast; rfl
  rwa [hpow, halfEven_natCast] at hle

end

/-- The place of the nearest float to a positive number, if there were floats of all exponents. -/
def nearestOrdinal (x : ℚ) : ℕ := ordinal (halfEven (x / 2 ^ unitExponent x)) (unitExponent x)

theorem nearestOrdinal_mono {x y : ℚ} (hx : 0 < x) (h : x ≤ y) : nearestOrdinal x ≤ nearestOrdinal y := by
  have hunit := unitExponent_mono hx h
  have hmin : -1074 ≤ unitExponent x := le_max_right _ _
  rw [nearestOrdinal, nearestOrdinal]
  rcases hunit.eq_or_lt with heq | hlt
  · have hunits : x / 2 ^ unitExponent x ≤ y / 2 ^ unitExponent x := by gcongr
    have hle := halfEven_mono (units_nonneg hx) hunits
    rw [← heq, ordinal, ordinal]
    omega
  · -- a unit of the greater number is at least two of the lesser one
    have hupper := halfEven_units_le hx
    have hlower := le_halfEven_units (hx.trans_le h) (by omega)
    rw [ordinal, ordinal]
    omega

def nearestPlace (x : ℚ) : ℤ :=
  if 0 < x then signed .positive (min (nearestOrdinal x) infinityOrdinal)
  else if x < 0 then signed .negative (min (nearestOrdinal (-x)) infinityOrdinal)
  else 0

theorem nearestPlace_neg (x : ℚ) : nearestPlace (-x) = -nearestPlace x := by
  simp only [nearestPlace, neg_neg, Left.neg_pos_iff, Left.neg_neg_iff]
  rcases lt_trichotomy x 0 with h | rfl | h
  · rw [if_pos h, if_neg h.not_gt, if_pos h, signed, signed, neg_neg]
  · rfl
  · rw [if_neg h.not_gt, if_pos h, if_pos h, signed, signed]

theorem nearestPlace_nonneg {x : ℚ} (h : 0 ≤ x) : 0 ≤ nearestPlace x := by
  rw [nearestPlace, if_neg h.not_gt]
  split
  · exact Int.natCast_nonneg _
  · exact le_rfl

theorem nearestPlace_mono {x y : ℚ} (h : x ≤ y) : nearestPlace x ≤ nearestPlace y := by
  have hpositive : ∀ {x y : ℚ}, 0 < x → x ≤ y → nearestPlace x ≤ nearestPlace y := by
    intro x y hx h
    have hle := nearestOrdinal_mono hx h
    rw [nearestPlace, nearestPlace, if_pos hx, if_pos (hx.trans_le h), signed, signed]
    omega
  rcases lt_or_ge 0 x with hx | hx
  · exact hpositive hx h
  · have hnonpos : nearestPlace x ≤ 0 := by
      have hnonneg := nearestPlace_nonneg (neg_nonneg.2 hx)
      rw [nearestPlace_neg] at hnonneg
      omega
    rcases lt_or_ge y 0 with hy | hy
    · have hle := hpositive (neg_pos.2 hy) (neg_le_neg h)
      rw [nearestPlace_neg, nearestPlace_neg] at hle
      omega
    · exact hnonpos.trans (nearestPlace_nonneg hy)

/-- What rounding leaves of a mantissa and its carry, at the same place. -/
theorem finish_eq (s : Sign) {m : ℕ} {e : ℤ} (hle : m ≤ 2 ^ 53) (hmin : -1074 ≤ e) (hfull : 2 ^ 52 ≤ m ∨ e = -1074) :
    m = 0 ∧ finish s m e = .zero s ∨
      ∃ (n : ℕ) (f : ℤ) (hn : 0 < n), finish s m e = .finite s n f hn ∧ ordinal n f = ordinal m e ∧ n < 2 ^ 53 ∧
        -1074 ≤ f ∧ (2 ^ 52 ≤ n ∨ f = -1074) := by
  rcases hle.lt_or_eq with hlt | rfl
  · -- the mantissa fits
    have hlog : m.log2 ≤ 52 := by
      by_cases hm : m = 0
      · rw [hm]
        decide
      · exact Nat.lt_succ_iff.1 ((Nat.log2_lt hm).2 hlt)
    have hstay : shiftToTargetExponent .binary64 m e .exact = (⟨m, false, false⟩, e) := by
      have hamount : (Format.binary64.targetExponent (totalExponent m e) - e).toNat = 0 := by
        rw [targetExponent_eq, totalExponent]
        omega
      rw [shiftToTargetExponent, shiftToExponent, hamount]
      exact congrArg (Prod.mk _) (Int.add_zero e)
    rw [finish, hstay]
    by_cases hm : m = 0
    · exact .inl ⟨hm, dif_pos hm⟩
    · exact .inr ⟨m, e, Nat.pos_of_ne_zero hm, dif_neg hm, rfl, hlt, hmin, hfull⟩
  · -- one bit is carried
    right
    have hshift : shiftToTargetExponent .binary64 (2 ^ 53) e .exact = (⟨2 ^ 52, false, false⟩, e + 1) := by
      have hamount : (Format.binary64.targetExponent (totalExponent (2 ^ 53) e) - e).toNat = 1 := by
        rw [targetExponent_eq, totalExponent, Nat.log2_two_pow]
        omega
      rw [shiftToTargetExponent, shiftToExponent, hamount]
      rfl
    refine ⟨2 ^ 52, e + 1, by norm_num, ?_, ?_, by norm_num, by omega, .inl le_rfl⟩
    · rw [finish, hshift]
      exact dif_neg (by norm_num)
    · rw [ordinal, ordinal]
      omega

end GraphProfile.Binary

namespace GraphProfile.Decimal
open Float.Model (Format UnpackedFloat totalExponent)
open Float.Model.UnpackedFloat
open Binary

theorem place_ofUnpacked_zero (s : Sign) : place (ofUnpacked (.zero s)) = 0 := by
  cases s <;> decide +kernel

theorem place_ofUnpacked_infinity (s : Sign) : place (ofUnpacked (.infinity s)) = signed s infinityOrdinal := by
  cases s <;> decide +kernel

theorem place_ofUnpacked_finite (s : Sign) {m : ℕ} {e : ℤ} (h : Canonical m e) :
    place (ofUnpacked (.finite s m e h.pos)) = signed s (ordinal m e) := by
  have hunpack := unpack_ofUnpacked_finite s h
  have hnumber : (ofUnpacked (.finite s m e h.pos)).isNaN = false := congrArg isNaN hunpack
  rw [← (level_unpack hnumber).2, hunpack]
  rfl

theorem ofUnpacked_congr {u v : UnpackedFloat} (h : pack .binary64 u = pack .binary64 v) :
    ofUnpacked u = ofUnpacked v := by
  simp only [ofUnpacked, Float.Model.pack, h]

def biased (e : ℤ) : ℕ := (e + Format.binary64.exponentBias + Format.binary64.mantissaBitsWithoutImplicit).toNat

/-- Exponents beyond those of floats are packed as infinity. -/
theorem ofUnpacked_of_large (s : Sign) {m : ℕ} {e : ℤ} (hm : 0 < m) (he : 2 ^ 11 ≤ biased e + 1) :
    ofUnpacked (.finite s m e hm) = ofUnpacked (.infinity s) :=
  ofUnpacked_congr (if_pos he)

theorem isNaN_of_field {x : Float} (h : field x ≠ 2047) : x.isNaN = false := by
  change x.toModel.unpack.isNaN = false
  rw [unpack_of_field h]
  split <;> rfl

theorem isNaN_ofUnpacked {u : UnpackedFloat} (h : u ≠ .notANumber) : (ofUnpacked u).isNaN = false := by
  cases u with
  | notANumber => exact absurd rfl h
  | zero s => exact congrArg isNaN (unpack_ofUnpacked_zero s)
  | infinity s => exact congrArg isNaN (unpack_ofUnpacked_infinity s)
  | finite s m e hm =>
    by_cases hlarge : 2 ^ 11 ≤ biased e + 1
    · rw [ofUnpacked_of_large s hm hlarge]
      exact congrArg isNaN (unpack_ofUnpacked_infinity s)
    · have hbits : (ofUnpacked (.finite s m e hm)).toBits.toNat = (pack .binary64 (.finite s m e hm)).toNat := rfl
      have hpack : pack .binary64 (.finite s m e hm) =
          if m.log2 + 1 = 53 then packComponents .binary64 s (.ofNat 11 (biased e)) (.ofNat 52 m)
          else packComponents .binary64 s 0#11 (.ofNat 52 m) := if_neg hlarge
      have hbiased : (BitVec.ofNat 11 (biased e)).toNat = biased e := Nat.mod_eq_of_lt (by omega)
      have hm : (BitVec.ofNat 52 m).toNat < 2 ^ 52 := (BitVec.ofNat 52 m).isLt
      apply isNaN_of_field
      rw [hpack] at hbits
      split at hbits
      · rw [toNat_packComponents, hbiased] at hbits
        obtain ⟨-, hfield, -⟩ := parts_of_toNat (by omega) hm hbits
        omega
      · rw [toNat_packComponents] at hbits
        obtain ⟨-, hfield, -⟩ := parts_of_toNat (by norm_num) hm hbits
        rw [hfield]
        decide

theorem isNaN_neg (x : Float) : (-x).isNaN = x.isNaN := by
  change (-x).toModel.unpack.isNaN = x.toModel.unpack.isNaN
  rw [unpack_neg]
  cases x.toModel.unpack <;> rfl

theorem isNaN_nearest (s : Sign) (x : ℚ) : (ofUnpacked (nearest s x)).isNaN = false := by
  apply isNaN_ofUnpacked
  rw [nearest, finish]
  split
  split <;> exact UnpackedFloat.noConfusion

theorem place_nearest (s : Sign) {x : ℚ} (hx : 0 < x) :
    place (ofUnpacked (nearest s x)) = signed s (min (nearestOrdinal x) infinityOrdinal) := by
  have hmin : -1074 ≤ unitExponent x := le_max_right _ _
  have hfull : 2 ^ 52 ≤ halfEven (x / 2 ^ unitExponent x) ∨ unitExponent x = -1074 := by
    rcases hmin.lt_or_eq with hlt | heq
    · exact .inl (le_halfEven_units hx hlt)
    · exact .inr heq.symm
  have hinfinity : infinityOrdinal = 2047 * 2 ^ 52 := rfl
  rw [nearest, nearestOrdinal]
  rcases finish_eq s (halfEven_units_le hx) hmin hfull with
    ⟨hzero, hfinish⟩ | ⟨n, f, hn, hfinish, hordinal, hlt, hmin', hfull'⟩
  · have hleast : unitExponent x = -1074 := hfull.resolve_left (by omega)
    rw [hfinish, place_ofUnpacked_zero, hzero, hleast]
    cases s <;> rfl
  · rw [hfinish, ← hordinal]
    by_cases hmax : f ≤ 971
    · have hcanonical : Canonical n f := ⟨hn, hlt, hmin', hmax, hfull'⟩
      rw [place_ofUnpacked_finite s hcanonical, min_eq_left hcanonical.ordinal_lt.le]
    · have hbeyond : infinityOrdinal ≤ ordinal n f := by
        rw [ordinal, hinfinity]
        omega
      have hlarge : 2 ^ 11 ≤ biased f + 1 := by
        change 2 ^ 11 ≤ (f + (1023 : ℕ) + (52 : ℕ)).toNat + 1
        omega
      rw [ofUnpacked_of_large s hn hlarge, place_ofUnpacked_infinity, min_eq_right hbeyond]

end GraphProfile.Decimal
