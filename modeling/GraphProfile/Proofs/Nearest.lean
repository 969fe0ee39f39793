import GraphProfile.Proofs.Packing

set_option autoImplicit false

namespace GraphProfile.Decimal
open Float.Model (Format UnpackedFloat)
open Float.Model.UnpackedFloat
open Binary

def value (d : Decimal) : ℚ := d.digits * 10 ^ d.exponent

theorem value_pos {d : Decimal} (h : d.digits ≠ 0) : 0 < d.value := by
  have hdigits : (0 : ℚ) < d.digits := by exact_mod_cast Nat.pos_of_ne_zero h
  rw [value]
  positivity

/-- The power of ten above the leading digit. -/
def leading (d : Decimal) : ℤ := d.exponent + digitCount d.digits

theorem lt_pow_digitCount (n : ℕ) : n < 10 ^ digitCount n :=
  (Nat.length_toDigits_le_iff (by norm_num) Nat.length_toDigits_pos).1 le_rfl

theorem pow_digitCount_le {n : ℕ} (hn : n ≠ 0) : 10 ^ (digitCount n - 1) ≤ n := by
  have hpos : 0 < digitCount n := Nat.length_toDigits_pos
  by_cases hone : digitCount n = 1
  · rw [hone]
    exact Nat.one_le_iff_ne_zero.2 hn
  · by_contra hlt
    have hle := (Nat.length_toDigits_le_iff (n := n) (by norm_num : 1 < 10) (by omega)).2 (not_le.1 hlt)
    change digitCount n ≤ _ at hle
    omega

theorem leading_eq {d : Decimal} (h : d.digits ≠ 0) : d.leading = Int.log 10 d.value + 1 := by
  have hpos := value_pos h
  have hcount : 0 < digitCount d.digits := Nat.length_toDigits_pos
  have hscale : (0 : ℚ) < 10 ^ d.exponent := by positivity
  have hpow : ∀ n : ℕ, ((10 : ℕ) : ℚ) ^ ((n : ℤ) + d.exponent) = ((10 ^ n : ℕ) : ℚ) * 10 ^ d.exponent := by
    intro n
    rw [Nat.cast_ofNat, zpow_add₀ (by norm_num), zpow_natCast]
    push_cast
    rfl
  have hupper : d.value < ((10 : ℕ) : ℚ) ^ ((digitCount d.digits : ℤ) + d.exponent) := by
    rw [hpow, value]
    exact mul_lt_mul_of_pos_right (by exact_mod_cast lt_pow_digitCount d.digits) hscale
  have hlower : ((10 : ℕ) : ℚ) ^ (((digitCount d.digits - 1 : ℕ) : ℤ) + d.exponent) ≤ d.value := by
    rw [hpow, value]
    exact mul_le_mul_of_nonneg_right (by exact_mod_cast pow_digitCount_le h) hscale.le
  have hlt := (Int.lt_zpow_iff_log_lt (by norm_num) hpos).1 hupper
  have hle := (Int.zpow_le_iff_le_log (by norm_num) hpos).1 hlower
  rw [leading]
  omega

/-- A float is exactly a positive number, of full mantissa. -/
def IsExactly (u : UnpackedFloat) (x : ℚ) : Prop :=
  ∃ n f, ∃ h : Canonical n f, u = .finite .positive n f h.pos ∧ 2 ^ 52 ≤ n ∧ -52 ≤ f ∧ f ≤ 21 ∧ (n * 2 ^ f : ℚ) = x

section
variable {u v : UnpackedFloat} {x y : ℚ} (hu : IsExactly u x) (hv : IsExactly v y)
include hu hv

theorem mul_of_isExactly : mul .binary64 u v = nearest .positive (x * y) := by
  obtain ⟨m, e, hm, rfl, -, -, -, rfl⟩ := hu
  obtain ⟨n, f, hn, rfl, -, -, -, rfl⟩ := hv
  exact mul_finite .positive .positive hm.pos hn.pos (hm.le_unitExponent_mul hn)

theorem div_of_isExactly : div .binary64 u v = nearest .positive (x / y) := by
  obtain ⟨m, e, hm, rfl, -, -, -, rfl⟩ := hu
  obtain ⟨n, f, hn, rfl, -, -, -, rfl⟩ := hv
  exact div_finite .positive .positive hm.pos hn.pos

end

theorem exists_canonical_whole {m : ℕ} (hm : 0 < m) (hlt : m < 2 ^ 53) :
    ∃ n f, Canonical n f ∧ 2 ^ 52 ≤ n ∧ -52 ≤ f ∧ f ≤ 0 ∧ (n * 2 ^ f : ℚ) = m := by
  have hlog : m.log2 ≤ 52 := Nat.lt_succ_iff.1 ((Nat.log2_lt hm.ne').2 hlt)
  obtain ⟨k, hk⟩ := Nat.le.dest hlog
  have hlower : 2 ^ 52 ≤ m * 2 ^ k := by
    rw [← hk, pow_add]
    exact Nat.mul_le_mul_right _ (Nat.log2_self_le hm.ne')
  have hupper : m * 2 ^ k < 2 ^ 53 := by
    have hpow : 2 ^ 53 = 2 ^ (m.log2 + 1) * 2 ^ k := by
      rw [← pow_add]
      congr 1
      omega
    rw [hpow]
    exact Nat.mul_lt_mul_of_pos_right Nat.lt_log2_self (by positivity)
  have hvalue : ((m * 2 ^ k : ℕ) * 2 ^ (-(k : ℤ)) : ℚ) = m := by
    rw [zpow_neg, zpow_natCast]
    push_cast
    field_simp
  exact ⟨m * 2 ^ k, -k, ⟨by positivity, hupper, by omega, by omega, .inl hlower⟩, hlower, by omega, by omega, hvalue⟩

theorem isExactly_whole {m : ℕ} (hm : 0 < m) (hlt : m < 2 ^ 53) : IsExactly m.toUInt64.toFloat.toModel.unpack m := by
  obtain ⟨n, f, hcanonical, hlower, hmin, hmax, hvalue⟩ := exists_canonical_whole hm hlt
  have hword : m.toUInt64.toNat = m := Nat.mod_eq_of_lt (by omega)
  have hround : ofNat .binary64 m.toUInt64.toNat = .finite .positive n f hcanonical.pos := by
    rw [hword, ofNat_eq hm, ← hvalue]
    exact nearest_of_canonical .positive hcanonical
  have hfloat : m.toUInt64.toFloat = ofUnpacked (ofNat .binary64 m.toUInt64.toNat) := rfl
  rw [hfloat, hround, unpack_ofUnpacked_finite _ hcanonical]
  exact ⟨n, f, hcanonical, rfl, hlower, hmin, by omega, hvalue⟩

def isPowerOfTen (k : ℕ) : UnpackedFloat → Bool
  | .finite .positive n f _ =>
    decide (2 ^ 52 ≤ n ∧ n < 2 ^ 53 ∧ -52 ≤ f ∧ f ≤ 21 ∧ n * 2 ^ (f + 52).toNat = 10 ^ k * 2 ^ 52)
  | _ => false

theorem isExactly_of_isPowerOfTen {k : ℕ} {u : UnpackedFloat} (h : isPowerOfTen k u) : IsExactly u (10 ^ k) := by
  rcases u with s | _ | s | ⟨s, n, f, hn⟩
  · cases h
  · cases h
  · cases h
  · cases s with
    | negative => cases h
    | positive =>
      obtain ⟨hlower, hupper, hmin, hmax, hvalue⟩ := of_decide_eq_true h
      have hcanonical : Canonical n f := ⟨hn, hupper, by omega, by omega, .inl hlower⟩
      refine ⟨n, f, hcanonical, rfl, hlower, hmin, hmax, ?_⟩
      obtain ⟨j, hj⟩ := Int.eq_ofNat_of_zero_le (by omega : 0 ≤ f + 52)
      have hf : f = j - (52 : ℕ) := by omega
      rw [hj, Int.toNat_natCast] at hvalue
      rw [hf, zpow_sub₀ two_ne_zero, zpow_natCast, zpow_natCast, ← mul_div_assoc, div_eq_iff (by positivity)]
      exact_mod_cast hvalue

theorem isPowerOfTen_table : ∀ i : Fin Float.exactlyRepresentablePowersOfTen.size,
    isPowerOfTen i (Float.exactlyRepresentablePowersOfTen[i]).toModel.unpack := by
  decide +kernel

theorem isExactly_table (k : ℕ) (hk : k < Float.exactlyRepresentablePowersOfTen.size) :
    IsExactly (Float.exactlyRepresentablePowersOfTen[k]).toModel.unpack (10 ^ k) :=
  isExactly_of_isPowerOfTen (isPowerOfTen_table ⟨k, hk⟩)

theorem ofScientific_short {m k : ℕ} (hm : 0 < m) (h : m < 2 ^ 53 ∧ k ≤ 22) (s : Bool) :
    Float.ofScientific m s k = ofUnpacked (nearest .positive (if s then m / 10 ^ k else m * 10 ^ k)) := by
  have hwhole := isExactly_whole hm h.1
  have hsize : Float.exactlyRepresentablePowersOfTen.size = 23 := rfl
  have hpower := isExactly_table k (by omega)
  rw [Float.ofScientific, dif_pos h]
  cases s with
  | true => exact congrArg ofUnpacked (div_of_isExactly hwhole hpower)
  | false => exact congrArg ofUnpacked (mul_of_isExactly hwhole hpower)

theorem ofScientific_long_of_natCast {m : ℕ} (hm : 0 < m) {k : ℕ} (hupper : (k : ℤ) ≤ 2048) :
    ofScientific .binary64 m k = nearest .positive (m * 10 ^ k) := by
  have htwo : (2 : ℤ) ^ Format.binary64.exponentBits = 2048 := rfl
  have hbits : Format.binary64.mantissaBits = 53 := rfl
  have hshifted : 0 < m <<< Format.binary64.mantissaBits := by
    rw [Nat.shiftLeft_eq]
    positivity
  have hpow : 0 < 10 ^ k := by positivity
  have hvalue : ((m <<< Format.binary64.mantissaBits : ℕ) * 2 ^ (-(Format.binary64.mantissaBits : ℤ)) *
      ((10 ^ k : ℕ) * 2 ^ (0 : ℤ)) : ℚ) = m * 10 ^ k := by
    rw [Nat.shiftLeft_eq, zpow_neg, zpow_natCast, zpow_zero, mul_one]
    push_cast
    rw [mul_assoc (m : ℚ), mul_inv_cancel₀ (by positivity), mul_one]
  have hone : ((2 : ℕ) : ℚ) ^ (0 : ℤ) ≤ m * 10 ^ k := by
    rw [zpow_zero]
    exact one_le_mul_of_one_le_of_one_le (Nat.one_le_cast.2 hm) (one_le_pow₀ (by norm_num))
  have hlog := (Int.zpow_le_iff_le_log one_lt_two (lt_of_lt_of_le (by norm_num) hone)).1 hone
  have hle : -(Format.binary64.mantissaBits : ℤ) + 0 ≤ unitExponent (m * 10 ^ k) := by
    rw [hbits, unitExponent]
    omega
  rw [← hvalue] at hle ⊢
  rw [ofScientific, dif_neg hm.ne', htwo, if_neg (by omega), if_neg (by omega), if_pos (by omega)]
  exact mul_finite .positive .positive hshifted hpow hle

theorem ofScientific_long_of_neg {m : ℕ} (hm : 0 < m) {k : ℕ} (hk : 0 < k) (hlower : (k : ℤ) ≤ 2048 + m.log2) :
    ofScientific .binary64 m (-k) = nearest .positive (m / 10 ^ k) := by
  have htwo : (2 : ℤ) ^ Format.binary64.exponentBits = 2048 := rfl
  have hpow : 0 < 10 ^ k := by positivity
  have hround := div_finite .positive .positive hm hpow (e := 0) (f := 0)
  rw [zpow_zero, mul_one, mul_one, Nat.cast_pow, Nat.cast_ofNat] at hround
  rw [ofScientific, dif_neg hm.ne', htwo, if_neg (by omega), if_neg (by omega), if_neg (by omega)]
  simp only [neg_neg, Int.toNat_natCast]
  exact hround

theorem ofScientific_eq {m k : ℕ} (hm : 0 < m) (s : Bool) (hs : s = true → 0 < k) (hk : k ≤ 2048 + m.log2)
    (hupper : s = false → k ≤ 2048) :
    Float.ofScientific m s k = ofUnpacked (nearest .positive (if s then m / 10 ^ k else m * 10 ^ k)) := by
  by_cases hshort : m < 2 ^ 53 ∧ k ≤ 22
  · exact ofScientific_short hm hshort s
  · rw [Float.ofScientific, dif_neg hshort]
    cases s with
    | true =>
      have hlong := ofScientific_long_of_neg hm (hs rfl) (by omega)
      have hneg : Int.negOfNat k = -(k : ℤ) := Int.negOfNat_eq
      rw [← hneg] at hlong
      exact congrArg ofUnpacked hlong
    | false => exact congrArg ofUnpacked (ofScientific_long_of_natCast hm (by have := hupper rfl; omega))

/-- Where neither bound of `toFloat` holds. -/
theorem toFloat_eq_nearest {d : Decimal} (h : d.digits ≠ 0) (hlower : -330 < d.leading) (hupper : d.leading < 311) :
    d.toFloat = ofUnpacked (nearest .positive d.value) := by
  have hdigits : 0 < d.digits := Nat.pos_of_ne_zero h
  have hcount : 0 < digitCount d.digits := Nat.length_toDigits_pos
  have htwo : digitCount d.digits ≤ d.digits.log2 + 1 := by
    refine (Nat.length_toDigits_le_iff (by norm_num) (by omega)).2 (Nat.lt_log2_self.trans_le ?_)
    exact Nat.pow_le_pow_left (by norm_num) _
  rw [leading] at hlower hupper
  have hvalue : d.value = if decide (d.exponent < 0) then (d.digits / 10 ^ d.exponent.natAbs : ℚ)
      else d.digits * 10 ^ d.exponent.natAbs := by
    rw [value]
    by_cases he : d.exponent < 0
    · have habs : d.exponent = -(d.exponent.natAbs : ℤ) := by omega
      rw [if_pos (decide_eq_true he), div_eq_mul_inv, ← zpow_natCast, ← zpow_neg, ← habs]
    · have habs : d.exponent = d.exponent.natAbs := by omega
      rw [if_neg (by simpa using he), ← zpow_natCast, ← habs]
  have htoFloat : d.toFloat = Float.ofScientific d.digits (decide (d.exponent < 0)) d.exponent.natAbs := by
    rw [toFloat, if_neg (by omega), if_neg (by omega)]
  rw [htoFloat, hvalue]
  apply ofScientific_eq hdigits
  · intro he
    have := of_decide_eq_true he
    omega
  · omega
  · intro he
    have := of_decide_eq_false he
    omega

theorem toFloat_eq_of_value {c d : Decimal} (h : c.value = d.value) : c.toFloat = d.toFloat := by
  have hzero : ∀ d : Decimal, d.digits = 0 ↔ d.value = 0 := by
    intro d
    have hscale : (10 : ℚ) ^ d.exponent ≠ 0 := by positivity
    rw [value, mul_eq_zero, Nat.cast_eq_zero, or_iff_left hscale]
  by_cases hd : d.digits = 0
  · have hc : c.digits = 0 := by rwa [hzero, h, ← hzero]
    rw [toFloat, toFloat, if_pos (.inl hc), if_pos (.inl hd)]
  · have hc : c.digits ≠ 0 := by rwa [Ne, hzero, h, ← hzero]
    have hleading : c.leading = d.leading := by rw [leading_eq hc, leading_eq hd, h]
    have hcl : c.leading = c.exponent + digitCount c.digits := rfl
    have hdl : d.leading = d.exponent + digitCount d.digits := rfl
    by_cases hlower : -330 < d.leading
    · by_cases hupper : d.leading < 311
      · rw [toFloat_eq_nearest hc (by omega) (by omega), toFloat_eq_nearest hd hlower hupper, h]
      · rw [toFloat, toFloat, if_neg (by omega), if_pos (by omega), if_neg (by omega), if_pos (by omega)]
    · rw [toFloat, toFloat, if_pos (by omega), if_pos (by omega)]

theorem value_ofSignificand (m : ℕ) (q : ℤ) : (ofSignificand m q).value = m * 2 ^ q := by
  rw [ofSignificand]
  by_cases hq : 0 ≤ q
  · obtain ⟨k, rfl⟩ := Int.eq_ofNat_of_zero_le hq
    rw [if_pos hq, value, Int.toNat_natCast, zpow_zero, mul_one, zpow_natCast]
    exact_mod_cast rfl
  · obtain ⟨k, hk⟩ := Int.eq_ofNat_of_zero_le (by omega : 0 ≤ -q)
    obtain rfl : q = -k := by omega
    have hten : (10 : ℚ) ^ k = 2 ^ k * 5 ^ k := by rw [← mul_pow]; norm_num
    rw [if_neg hq, value, neg_neg, Int.toNat_natCast, zpow_neg, zpow_neg, zpow_natCast, zpow_natCast, hten]
    change ((m * 5 ^ k : ℕ) : ℚ) * _ = _
    push_cast
    field_simp

theorem digits_ofSignificand {m : ℕ} (hm : 0 < m) (q : ℤ) : (ofSignificand m q).digits ≠ 0 := by
  rw [ofSignificand]
  split
  · exact (Nat.mul_pos hm (Nat.pow_pos two_pos)).ne'
  · exact (Nat.mul_pos hm (Nat.pow_pos (by norm_num))).ne'

/-- The least float is above `10 ^ -324`, and the greatest is below `10 ^ 309`. -/
theorem leading_ofSignificand {m : ℕ} {q : ℤ} (h : Canonical m q) :
    -330 < (ofSignificand m q).leading ∧ (ofSignificand m q).leading < 311 := by
  have hm : (1 : ℚ) ≤ m := Nat.one_le_cast.2 h.pos
  have hlt : (m : ℚ) < 2 ^ 53 := by exact_mod_cast h.lt
  have hvalue := value_ofSignificand m q
  have hdigits := digits_ofSignificand h.pos q
  have hpos := value_pos hdigits
  have hleast : (2 ^ 1074 : ℚ) ≤ 10 ^ 324 := by exact_mod_cast (by decide +kernel : 2 ^ 1074 ≤ 10 ^ 324)
  have hgreatest : (2 ^ 53 * 2 ^ 971 : ℚ) < 10 ^ 309 := by
    exact_mod_cast (by decide +kernel : 2 ^ 53 * 2 ^ 971 < 10 ^ 309)
  have hlower : ((10 : ℕ) : ℚ) ^ (-(324 : ℕ) : ℤ) ≤ (ofSignificand m q).value := by
    calc ((10 : ℕ) : ℚ) ^ (-(324 : ℕ) : ℤ) = ((10 : ℚ) ^ 324)⁻¹ := by rw [Nat.cast_ofNat, zpow_neg, zpow_natCast]
      _ ≤ ((2 : ℚ) ^ 1074)⁻¹ := inv_anti₀ (by positivity) hleast
      _ = 2 ^ (-(1074 : ℕ) : ℤ) := by rw [zpow_neg, zpow_natCast]
      _ ≤ 2 ^ q := zpow_le_zpow_right₀ one_le_two h.minimal
      _ ≤ m * 2 ^ q := le_mul_of_one_le_left (by positivity) hm
      _ = (ofSignificand m q).value := hvalue.symm
  have hupper : (ofSignificand m q).value < ((10 : ℕ) : ℚ) ^ ((309 : ℕ) : ℤ) := by
    calc (ofSignificand m q).value = m * 2 ^ q := hvalue
      _ ≤ m * 2 ^ ((971 : ℕ) : ℤ) :=
        mul_le_mul_of_nonneg_left (zpow_le_zpow_right₀ one_le_two h.maximal) (by linarith)
      _ < 2 ^ 53 * 2 ^ ((971 : ℕ) : ℤ) := mul_lt_mul_of_pos_right hlt (by positivity)
      _ < (10 : ℚ) ^ 309 := by rwa [zpow_natCast]
      _ = ((10 : ℕ) : ℚ) ^ ((309 : ℕ) : ℤ) := by rw [Nat.cast_ofNat, zpow_natCast]
  have hle := (Int.zpow_le_iff_le_log (by norm_num) hpos).1 hlower
  have hlt := (Int.lt_zpow_iff_log_lt (by norm_num) hpos).1 hupper
  rw [leading_eq hdigits]
  omega

theorem value_trim_go (n : ℕ) (d : Decimal) : (trim.go n d).value = d.value := by
  induction n generalizing d with
  | zero => rfl
  | succ n ih =>
    rw [trim.go]
    split
    · rename_i hd
      obtain ⟨k, hk⟩ := Nat.dvd_of_mod_eq_zero hd.2
      rw [ih, value, value, hk, Nat.mul_div_cancel_left k (by norm_num), zpow_add_one₀ (by norm_num)]
      push_cast
      ring
    · rfl

theorem value_trim (d : Decimal) : d.trim.value = d.value := value_trim_go _ d

section
variable {x : Float} (hfinite : x.isFinite)
include hfinite

theorem readsBack_ofFloat : (ofFloat x).ReadsBack x := by
  rw [ReadsBack, ofFloat]
  rcases magnitude_cases hfinite with ⟨hzero, hm⟩ | ⟨h, hself⟩
  · have hdigits : (ofSignificand (significand x).1 (significand x).2).digits = 0 := by
      rw [hm, ofSignificand]
      split <;> exact Nat.zero_mul _
    rw [hzero, toFloat, if_pos (.inl hdigits)]
  · obtain ⟨hlower, hupper⟩ := leading_ofSignificand h
    have hdigits := digits_ofSignificand h.pos (significand x).2
    rw [toFloat_eq_nearest hdigits hlower hupper, value_ofSignificand, nearest_of_canonical .positive h, hself]

theorem readsBack_shortest (tie : Tie) : (shortest tie x).ReadsBack x := by
  rw [ReadsBack, shortest, toFloat_eq_of_value (value_trim _)]
  generalize List.range (digitCount (ofFloat x).digits) = lengths
  cases hfound : lengths.findSome? fun n => withDigits? tie x (n + 1) with
  | none => exact readsBack_ofFloat hfinite
  | some d =>
    obtain ⟨n, -, hd⟩ := List.exists_of_findSome?_eq_some hfound
    rw [withDigits?] at hd
    have hback := List.find?_some hd
    exact of_decide_eq_true hback

end

end GraphProfile.Decimal
