import Mathlib

set_option autoImplicit false

/-!
# Rounding to the nearest float

A finite float is a number below `2 ^ 53` in units of a power of two. Products and quotients are rounded from a
mantissa with two more bits, which tell the half of a unit that a number lies in and whether it lies inside it. They
tell enough: what becomes of a positive number depends on the number alone and not on how it was come by (`nearest`).
-/
namespace GraphProfile.Binary
open Float.Model (Format UnpackedFloat totalExponent)
open Float.Model.UnpackedFloat

def half (bit : Bool) : ℚ := if bit then 1 / 2 else 0

/-- The mantissa with its bits stands for a number of units. -/
def Represents (em : ExtendedMantissa) (y : ℚ) : Prop :=
  ∃ rest : ℚ, y = em.mantissa + half em.roundBit + rest ∧ 0 ≤ rest ∧ rest < 1 / 2 ∧ (em.stickyBit = true ↔ rest ≠ 0)

/-- The nearest whole number; of two that are equally near, the even one. -/
def halfEven (y : ℚ) : ℕ :=
  match compare (2 * (y - ⌊y⌋₊)) 1 with
  | .lt => ⌊y⌋₊
  | .eq => ⌊y⌋₊ + ⌊y⌋₊ % 2
  | .gt => ⌊y⌋₊ + 1

theorem half_nonneg (bit : Bool) : 0 ≤ half bit := by
  cases bit <;> norm_num [half]

theorem half_le (bit : Bool) : half bit ≤ 1 / 2 := by
  cases bit <;> norm_num [half]

theorem floor_of_represents {em : ExtendedMantissa} {y : ℚ} (h : Represents em y) : ⌊y⌋₊ = em.mantissa := by
  obtain ⟨rest, rfl, hnonneg, hlt, -⟩ := h
  have hhalf := half_nonneg em.roundBit
  have hle := half_le em.roundBit
  rw [Nat.floor_eq_iff (by positivity)]
  constructor <;> linarith

theorem roundedMantissa_eq {em : ExtendedMantissa} {y : ℚ} (h : Represents em y) : em.roundedMantissa = halfEven y := by
  have hfloor := floor_of_represents h
  obtain ⟨rest, hy, hnonneg, hlt, hsticky⟩ := h
  have hpart : 2 * (y - ⌊y⌋₊) = 2 * half em.roundBit + 2 * rest := by
    rw [hfloor, hy]
    ring
  rw [halfEven, hpart, hfloor]
  obtain ⟨m, round, sticky⟩ := em
  have hzero : sticky = false → rest = 0 := by
    rintro rfl
    simpa using hsticky
  have hpos : sticky = true → 0 < rest := fun hs => lt_of_le_of_ne hnonneg (Ne.symm (hsticky.1 hs))
  cases round with
  | false =>
    have hcompare : compare (2 * half false + 2 * rest) 1 = .lt := compare_lt_iff_lt.2 (by norm_num [half]; linarith)
    rw [hcompare]
    cases sticky <;> rfl
  | true =>
    cases sticky with
    | false =>
      have hcompare : compare (2 * half true + 2 * rest) 1 = .eq := by
        rw [hzero rfl, compare_eq_iff_eq]
        norm_num [half]
      rw [hcompare]
      rfl
    | true =>
      have hcompare : compare (2 * half true + 2 * rest) 1 = .gt := by
        have := hpos rfl
        exact compare_gt_iff_gt.2 (by norm_num [half]; linarith)
      rw [hcompare]
      rfl

theorem represents_shiftRightOne {em : ExtendedMantissa} {y : ℚ} (h : Represents em y) :
    Represents em.shiftRightOne (y / 2) := by
  obtain ⟨rest, rfl, hnonneg, hlt, hsticky⟩ := h
  have hhalf := half_nonneg em.roundBit
  have hle := half_le em.roundBit
  have hmod : (em.mantissa : ℚ) = 2 * (em.mantissa / 2 : ℕ) + 2 * half (em.mantissa % 2 != 0) := by
    have hsplit := Nat.div_add_mod em.mantissa 2
    rcases Nat.mod_two_eq_zero_or_one em.mantissa with hbit | hbit
    · rw [hbit] at hsplit ⊢
      norm_num [half]
      exact_mod_cast hsplit.symm
    · rw [hbit] at hsplit ⊢
      norm_num [half]
      exact_mod_cast hsplit.symm
  refine ⟨half em.roundBit / 2 + rest / 2, ?_, by linarith, by linarith, ?_⟩
  · change _ = ((em.mantissa / 2 : ℕ) : ℚ) + half (em.mantissa % 2 != 0) + _
    linarith
  · change (em.roundBit || em.stickyBit) = true ↔ _
    cases hround : em.roundBit with
    | true =>
      norm_num [half]
      linarith
    | false =>
      rw [Bool.false_or, hsticky]
      norm_num [half]

theorem represents_shiftRight {em : ExtendedMantissa} {y : ℚ} (h : Represents em y) (n : ℕ) :
    Represents (em >>> n) (y / 2 ^ n) := by
  change Represents (n.repeat ExtendedMantissa.shiftRightOne em) _
  induction n with
  | zero => simpa [Nat.repeat] using h
  | succ n ih =>
    rw [pow_succ, ← div_div]
    exact represents_shiftRightOne ih

theorem represents_exact (m : ℕ) : Represents (.ofMantissaAndAccuracy m .exact) m :=
  ⟨0, by simp [ExtendedMantissa.ofMantissaAndAccuracy, half], le_rfl, by norm_num,
    by simp [ExtendedMantissa.ofMantissaAndAccuracy]⟩

/-- A quotient, given as its whole part and the fraction that is left. -/
theorem represents_fraction (n : ℕ) {d : ℕ} (hd : 0 < d) :
    Represents (.ofMantissaAndAccuracy (n / d) (accuracyOfFraction (n % d) d)) (n / d) := by
  have hd' : (0 : ℚ) < d := by exact_mod_cast hd
  have hvalue : (n : ℚ) / d = (n / d : ℕ) + ((n % d : ℕ) : ℚ) / d := by
    have hsplit : (n : ℚ) = d * (n / d : ℕ) + (n % d : ℕ) := by exact_mod_cast (Nat.div_add_mod n d).symm
    rw [div_eq_iff hd'.ne', add_mul, div_mul_cancel₀ _ hd'.ne']
    linarith
  have hlt : (n % d : ℕ) < d := Nat.mod_lt n hd
  generalize n % d = left at *
  rw [hvalue, accuracyOfFraction]
  by_cases hzero : left = 0
  · rw [if_pos hzero, hzero, Nat.cast_zero, zero_div, add_zero]
    exact represents_exact (n / d)
  · have hpos : (0 : ℚ) < left / d := div_pos (by exact_mod_cast Nat.pos_of_ne_zero hzero) hd'
    have hone : (left : ℚ) / d < 1 := (div_lt_one hd').2 (by exact_mod_cast hlt)
    rw [if_neg hzero]
    rcases lt_trichotomy (2 * left) d with hside | hside | hside
    · have hhalf : (left : ℚ) / d < 1 / 2 := by
        rw [div_lt_div_iff₀ hd' two_pos]
        exact_mod_cast (by omega : left * 2 < 1 * d)
      rw [compare_lt_iff_lt.2 hside]
      exact ⟨left / d, by simp [ExtendedMantissa.ofMantissaAndAccuracy, half], hpos.le, hhalf,
        by simp [ExtendedMantissa.ofMantissaAndAccuracy, hpos.ne']⟩
    · have hhalf : (left : ℚ) / d = 1 / 2 := by
        rw [div_eq_div_iff hd'.ne' two_ne_zero]
        exact_mod_cast (by omega : left * 2 = 1 * d)
      rw [compare_eq_iff_eq.2 hside, hhalf]
      exact ⟨0, by simp [ExtendedMantissa.ofMantissaAndAccuracy, half], le_rfl, by norm_num,
        by simp [ExtendedMantissa.ofMantissaAndAccuracy]⟩
    · have hhalf : 1 / 2 < (left : ℚ) / d := by
        rw [div_lt_div_iff₀ two_pos hd']
        exact_mod_cast (by omega : 1 * d < left * 2)
      rw [compare_gt_iff_gt.2 hside]
      refine ⟨left / d - 1 / 2, ?_, by linarith, by linarith, ?_⟩
      · simp only [ExtendedMantissa.ofMantissaAndAccuracy, half, if_true]
        ring
      · simp only [ExtendedMantissa.ofMantissaAndAccuracy, true_iff]
        linarith

/-- The unit in which a number is rounded, as a power of two. -/
def unitExponent (x : ℚ) : ℤ := max (Int.log 2 x - 52) (-1074)

/-- A mantissa that rounding has carried over to one more bit loses its last bit, which is zero. -/
def finish (s : Sign) (m : ℕ) (e : ℤ) : UnpackedFloat :=
  let (em, e) := shiftToTargetExponent .binary64 m e .exact
  if h : em.mantissa = 0 then .zero s else .finite s em.mantissa e (Nat.pos_of_ne_zero h)

def nearest (s : Sign) (x : ℚ) : UnpackedFloat :=
  finish s (halfEven (x / 2 ^ unitExponent x)) (unitExponent x)

theorem targetExponent_eq (n : ℤ) : Format.binary64.targetExponent n = max (n - 53) (-1074) := by
  rw [Format.targetExponent]
  rfl

theorem log_eq {m : ℕ} {e : ℤ} {y : ℚ} (hm : m ≠ 0) (hle : (m : ℚ) ≤ y) (hlt : y < m + 1) :
    Int.log 2 (y * 2 ^ e) = m.log2 + e := by
  have hpow : ∀ n : ℕ, ((2 ^ n : ℕ) : ℚ) * 2 ^ e = (2 : ℕ) ^ ((n : ℤ) + e) := by
    intro n
    rw [Nat.cast_ofNat, zpow_add₀ two_ne_zero, zpow_natCast]
    push_cast
    rfl
  have hpos : (0 : ℚ) < 2 ^ e := by positivity
  have hmpos : (0 : ℚ) < m := by exact_mod_cast Nat.pos_of_ne_zero hm
  have hx : 0 < y * 2 ^ e := mul_pos (by linarith) hpos
  have hlower : ((2 ^ m.log2 : ℕ) : ℚ) ≤ y := le_trans (by exact_mod_cast Nat.log2_self_le hm) hle
  have hupper : y < ((2 ^ (m.log2 + 1) : ℕ) : ℚ) := hlt.trans_le (by exact_mod_cast Nat.lt_log2_self)
  apply le_antisymm
  · have hbelow : y * 2 ^ e < (2 : ℕ) ^ (((m.log2 + 1 : ℕ) : ℤ) + e) := hpow _ ▸ mul_lt_mul_of_pos_right hupper hpos
    have hlog := (Int.lt_zpow_iff_log_lt one_lt_two hx).1 hbelow
    push_cast at hlog
    omega
  · have habove : (2 : ℕ) ^ ((m.log2 : ℤ) + e) ≤ y * 2 ^ e := hpow _ ▸ mul_le_mul_of_nonneg_right hlower hpos.le
    exact (Int.zpow_le_iff_le_log one_lt_two hx).1 habove

section
variable {m : ℕ} {e : ℤ} {y : ℚ} (hpos : 0 < y) (hle : e ≤ unitExponent (y * 2 ^ e))
include hpos hle

theorem targetExponent_of_le (hlower : (m : ℚ) ≤ y) (hupper : y < m + 1) :
    Format.binary64.targetExponent (totalExponent m e) = unitExponent (y * 2 ^ e) := by
  rw [targetExponent_eq, totalExponent]
  rw [unitExponent] at hle ⊢
  by_cases hm : m = 0
  · -- less than one unit, so the unit is the least one
    subst hm
    have hsmall : y * 2 ^ e < (2 : ℕ) ^ e := by
      have hscale : (0 : ℚ) < 2 ^ e := by positivity
      simpa using mul_lt_mul_of_pos_right hupper hscale
    have hlog := (Int.lt_zpow_iff_log_lt one_lt_two (by positivity)).1 hsmall
    change max (0 + 1 + e - 53) (-1074) = _
    omega
  · rw [log_eq hm hlower hupper]
    omega

theorem roundWithAccuracy_eq {acc : Accuracy} (h : Represents (.ofMantissaAndAccuracy m acc) y) (s : Sign) :
    roundWithAccuracy .binary64 s m e acc = nearest s (y * 2 ^ e) := by
  have hfloor := floor_of_represents h
  have hmantissa : (ExtendedMantissa.ofMantissaAndAccuracy m acc).mantissa = m := by
    rcases acc with _ | side
    · rfl
    · cases side <;> rfl
  rw [hmantissa, Nat.floor_eq_iff hpos.le] at hfloor
  have htarget := targetExponent_of_le hpos hle hfloor.1 hfloor.2
  obtain ⟨n, hn⟩ := Int.le.dest hle
  have hshift : (unitExponent (y * 2 ^ e) - e).toNat = n := by omega
  have hunits : y * 2 ^ e / 2 ^ unitExponent (y * 2 ^ e) = y / 2 ^ n := by
    rw [← hn, zpow_add₀ two_ne_zero, zpow_natCast, mul_comm (2 ^ e : ℚ), mul_div_mul_right _ _ (by positivity)]
  have hrounded := roundedMantissa_eq (represents_shiftRight h n)
  rw [nearest, hunits, ← hrounded, ← hn, roundWithAccuracy, shiftToTargetExponent, htarget, shiftToExponent, hshift]
  rfl

end

section
variable (s t : Sign) {m n : ℕ} (hm : 0 < m) (hn : 0 < n) {e f : ℤ}

theorem mul_finite (hle : e + f ≤ unitExponent (m * 2 ^ e * (n * 2 ^ f))) :
    mul .binary64 (.finite s m e hm) (.finite t n f hn) = nearest (s * t) (m * 2 ^ e * (n * 2 ^ f)) := by
  have hvalue : (m * 2 ^ e * (n * 2 ^ f) : ℚ) = (m * n : ℕ) * 2 ^ (e + f) := by
    rw [zpow_add₀ two_ne_zero]
    push_cast
    ring
  have hpos : (0 : ℚ) < (m * n : ℕ) := by exact_mod_cast Nat.mul_pos hm hn
  rw [hvalue] at hle ⊢
  exact roundWithAccuracy_eq hpos hle (represents_exact (m * n)) (s * t)

include hm hn in
theorem log_div_ge : (m.log2 : ℤ) + e - (n.log2 + 1 + f) ≤ Int.log 2 (m * 2 ^ e / (n * 2 ^ f) : ℚ) := by
  have hm' : (0 : ℚ) < m := by exact_mod_cast hm
  have hn' : (0 : ℚ) < n := by exact_mod_cast hn
  have hlower : ((2 : ℕ) : ℚ) ^ ((m.log2 : ℤ) + e) ≤ m * 2 ^ e := by
    rw [Nat.cast_ofNat, zpow_add₀ two_ne_zero, zpow_natCast]
    exact mul_le_mul_of_nonneg_right (by exact_mod_cast Nat.log2_self_le hm.ne') (by positivity)
  have hupper : n * 2 ^ f ≤ ((2 : ℕ) : ℚ) ^ ((n.log2 : ℤ) + 1 + f) := by
    rw [Nat.cast_ofNat, zpow_add₀ two_ne_zero]
    exact mul_le_mul_of_nonneg_right (by exact_mod_cast Nat.lt_log2_self.le) (by positivity)
  rw [← Int.zpow_le_iff_le_log one_lt_two (by positivity), zpow_sub₀ (by norm_num)]
  exact div_le_div₀ (by positivity) hlower (by positivity) hupper

theorem div_finite :
    div .binary64 (.finite s m e hm) (.finite t n f hn) = nearest (s / t) (m * 2 ^ e / (n * 2 ^ f)) := by
  let unit := min (e - f) (Format.binary64.targetExponent (totalExponent m e - totalExponent n f))
  obtain ⟨k, hk⟩ := Int.le.dest (min_le_left (e - f) _ : unit ≤ e - f)
  have hshift : (e - f - unit).toNat = k := by omega
  have hn' : (0 : ℚ) < n := by exact_mod_cast hn
  have hvalue : (m * 2 ^ e / (n * 2 ^ f) : ℚ) = ((m <<< k : ℕ) : ℚ) / n * 2 ^ unit := by
    have he : e = unit + k + f := by omega
    rw [he, zpow_add₀ two_ne_zero, zpow_add₀ two_ne_zero, zpow_natCast, Nat.shiftLeft_eq]
    push_cast
    field_simp
  have hpos : (0 : ℚ) < ((m <<< k : ℕ) : ℚ) / n := by
    have : 0 < m <<< k := by
      rw [Nat.shiftLeft_eq]
      positivity
    positivity
  have hunit : unit = min (e - f) (max ((m.log2 : ℤ) + 1 + e - (n.log2 + 1 + f) - 53) (-1074)) := by
    rw [← targetExponent_eq]
    rfl
  have hle : unit ≤ unitExponent (((m <<< k : ℕ) : ℚ) / n * 2 ^ unit) := by
    have hlog := log_div_ge hm hn (e := e) (f := f)
    rw [← hvalue, unitExponent]
    omega
  have hround := roundWithAccuracy_eq hpos hle (represents_fraction (m <<< k) hn) (s / t)
  rw [hvalue, ← hround, div, divCore]
  change (let (m, e, acc) := (_ / _, unit, _); roundWithAccuracy _ _ m e acc) = _
  rw [hshift]

end

/-- The numbers that floats have: full mantissas, and smaller ones of the least unit. -/
structure Canonical (m : ℕ) (e : ℤ) : Prop where
  pos : 0 < m
  lt : m < 2 ^ 53
  minimal : -1074 ≤ e
  maximal : e ≤ 971
  full : 2 ^ 52 ≤ m ∨ e = -1074

/-- Two mantissas hold the bits of their product, or they are of the least unit both. -/
theorem Canonical.le_unitExponent_mul {m n : ℕ} {e f : ℤ} (hm : Canonical m e) (hn : Canonical n f) :
    e + f ≤ unitExponent (m * 2 ^ e * (n * 2 ^ f)) := by
  have hm₁ : 1 ≤ m := hm.pos
  have hn₁ : 1 ≤ n := hn.pos
  by_cases hfull : 2 ^ 52 ≤ m * n
  · have hvalue : (m * 2 ^ e * (n * 2 ^ f) : ℚ) = (m * n : ℕ) * 2 ^ (e + f) := by
      rw [zpow_add₀ two_ne_zero]
      push_cast
      ring
    have hlog : 52 ≤ (m * n).log2 := (Nat.le_log2 (by positivity)).2 hfull
    rw [hvalue, unitExponent, log_eq (by positivity) le_rfl (lt_add_one _)]
    omega
  · have hleast : e = -1074 := hm.full.resolve_left fun h => hfull (h.trans (Nat.le_mul_of_pos_right m hn₁))
    have hleast' : f = -1074 := hn.full.resolve_left fun h => hfull (h.trans (Nat.le_mul_of_pos_left n hm₁))
    rw [unitExponent]
    omega

theorem unitExponent_of_canonical {m : ℕ} {e : ℤ} (h : Canonical m e) : unitExponent (m * 2 ^ e) = e := by
  have hupper : m.log2 < 53 := (Nat.log2_lt h.pos.ne').2 h.lt
  have hmin := h.minimal
  rw [unitExponent, log_eq h.pos.ne' le_rfl (lt_add_one _)]
  rcases h.full with hfull | hleast
  · have hlower : 52 ≤ m.log2 := (Nat.le_log2 h.pos.ne').2 hfull
    omega
  · omega

theorem nearest_of_canonical (s : Sign) {m : ℕ} {e : ℤ} (h : Canonical m e) :
    nearest s (m * 2 ^ e) = .finite s m e h.pos := by
  have hunit := unitExponent_of_canonical h
  have hrounded : halfEven (m * 2 ^ e / 2 ^ e) = m := by
    rw [mul_div_cancel_right₀ _ (by positivity), ← roundedMantissa_eq (represents_exact m)]
    rfl
  have hm : (m : ℚ) ≠ 0 := by exact_mod_cast h.pos.ne'
  have htarget : Format.binary64.targetExponent (totalExponent m e) = e := by
    have hpos : (0 : ℚ) < m := by exact_mod_cast h.pos
    rw [targetExponent_of_le hpos hunit.ge le_rfl (lt_add_one _), hunit]
  have hstay : shiftToTargetExponent .binary64 m e .exact = (⟨m, false, false⟩, e) := by
    rw [shiftToTargetExponent, htarget, shiftToExponent, Int.sub_self]
    exact congrArg (Prod.mk _) (Int.add_zero e)
  rw [nearest, hunit, hrounded, finish, hstay]
  exact dif_neg h.pos.ne'

theorem round_eq (s : Sign) {m : ℕ} (hm : 0 < m) (e : ℤ) : round .binary64 s m e = nearest s (m * 2 ^ e) := by
  have hmpos : (0 : ℚ) < m := by exact_mod_cast hm
  let target := Format.binary64.targetExponent (totalExponent m e)
  let k := (e - target).toNat
  have hvalue : (m * 2 ^ e : ℚ) = (m <<< k : ℕ) * 2 ^ (e - (k : ℤ)) := by
    rw [Nat.shiftLeft_eq, zpow_sub₀ two_ne_zero, zpow_natCast]
    push_cast
    field_simp
  have hunit : unitExponent (m * 2 ^ e) = target := by
    rw [unitExponent, log_eq hm.ne' le_rfl (lt_add_one (m : ℚ))]
    change _ = Format.binary64.targetExponent (m.log2 + 1 + e)
    rw [targetExponent_eq]
    omega
  have hshifted : 0 < m <<< k := by
    rw [Nat.shiftLeft_eq]
    positivity
  have hle : e - (k : ℤ) ≤ unitExponent ((m <<< k : ℕ) * 2 ^ (e - (k : ℤ))) := by
    rw [← hvalue, hunit]
    omega
  have hround := roundWithAccuracy_eq (by exact_mod_cast hshifted) hle (represents_exact _) s
  rw [← hvalue] at hround
  exact hround

/-- Whole numbers of units, with the sign that an exact zero gets. -/
theorem normalize_eq (z e : ℤ) (s : Sign) : UnpackedFloat.normalize .binary64 z e s =
    if 0 < z then nearest .positive (z * 2 ^ e) else if z < 0 then nearest .negative (-z * 2 ^ e) else .zero s := by
  rw [UnpackedFloat.normalize]
  rcases lt_trichotomy z 0 with hz | rfl | hz
  · have hcast : ((-z).toNat : ℚ) = -z := by exact_mod_cast Int.toNat_of_nonneg (by omega)
    rw [compare_lt_iff_lt.2 hz, if_neg (by omega), if_pos hz, ← hcast]
    exact round_eq .negative (by omega) e
  · rfl
  · have hcast : (z.toNat : ℚ) = z := by exact_mod_cast Int.toNat_of_nonneg hz.le
    rw [compare_gt_iff_gt.2 hz, if_pos hz, ← hcast]
    exact round_eq .positive (by omega) e

theorem ofNat_eq {m : ℕ} (hm : 0 < m) : ofNat .binary64 m = nearest .positive m := by
  have hm' : (0 : ℤ) < m := by exact_mod_cast hm
  rw [ofNat, ofInt, normalize_eq, if_pos hm', zpow_zero, mul_one, Int.cast_natCast]

end GraphProfile.Binary
