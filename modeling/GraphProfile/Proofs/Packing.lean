import GraphProfile.Decimal.Shortest
import GraphProfile.Proofs.Rounding

set_option autoImplicit false

namespace GraphProfile.Binary
open Float.Model (Format UnpackedFloat)
open Float.Model.UnpackedFloat

section
variable (b : BitVec Format.binary64.numBits)

theorem toNat_unpackMantissa : (unpackMantissa b).toNat = b.toNat % 2 ^ 52 := by
  simp [unpackMantissa]

theorem toNat_unpackExponent : (unpackExponent b).toNat = b.toNat / 2 ^ 52 % 2 ^ 11 := by
  simp [unpackExponent, Nat.shiftRight_eq_div_pow]

theorem toNat_unpackSign : (unpackSign b).toNat = b.toNat / 2 ^ 63 := by
  have hlt : b.toNat < 2 ^ 64 := b.isLt
  simp [unpackSign, Nat.shiftRight_eq_div_pow]
  omega

end

def signBit : Sign → ℕ
  | .negative => 1
  | .positive => 0

theorem toNat_packComponents (s : Sign) (e : BitVec 11) (m : BitVec 52) :
    (packComponents .binary64 s e m).toNat = signBit s * 2 ^ 63 + e.toNat * 2 ^ 52 + m.toNat := by
  have hm := m.isLt
  have he := e.isLt
  rw [packComponents]
  erw [BitVec.toNat_append, BitVec.toNat_append]
  rw [← Nat.shiftLeft_add_eq_or_of_lt he, ← Nat.shiftLeft_add_eq_or_of_lt hm]
  cases s
  · simp [Sign.toBitVec, signBit, Nat.shiftLeft_eq]
    omega
  · simp [Sign.toBitVec, signBit, Nat.shiftLeft_eq]

theorem signBit_ofBitVec (b : BitVec 1) : signBit (Sign.ofBitVec b) = b.toNat := by
  revert b
  decide

theorem packComponents_eq (b : BitVec Format.binary64.numBits) :
    packComponents .binary64 (.ofBitVec (unpackSign b)) (unpackExponent b) (unpackMantissa b) = b := by
  have hlt : b.toNat < 2 ^ 64 := b.isLt
  apply BitVec.eq_of_toNat_eq
  rw [toNat_packComponents, signBit_ofBitVec, toNat_unpackSign, toNat_unpackExponent, toNat_unpackMantissa]
  omega

theorem toNat_full (m : BitVec 52) : (1#1 ++ m).toNat = 2 ^ 52 + m.toNat := by
  rw [BitVec.toNat_append, ← Nat.shiftLeft_add_eq_or_of_lt m.isLt]
  rfl

theorem log2_full {m : ℕ} (hlower : 2 ^ 52 ≤ m) (hupper : m < 2 ^ 53) : m.log2 = 52 := by
  have hm : m ≠ 0 := by omega
  have hge : 52 ≤ m.log2 := (Nat.le_log2 hm).2 hlower
  have hlt : m.log2 < 53 := (Nat.log2_lt hm).2 hupper
  omega

/-- The mantissa is full where the exponent is not the least one. -/
theorem pack_finite (s : Sign) {m : ℕ} {e : ℤ} (h : Canonical m e) :
    pack .binary64 (.finite s m e h.pos) =
      if 2 ^ 52 ≤ m then packComponents .binary64 s (.ofNat 11 (e + 1075).toNat) (.ofNat 52 m)
      else packComponents .binary64 s 0#11 (.ofNat 52 m) := by
  have hmin := h.minimal
  have hmax := h.maximal
  have hbiased : (e + Format.binary64.exponentBias + Format.binary64.mantissaBitsWithoutImplicit).toNat =
      (e + 1075).toNat := by
    change (e + (1023 : ℕ) + (52 : ℕ)).toNat = _
    omega
  have hfits : ¬2 ^ 11 ≤ (e + 1075).toNat + 1 := by omega
  rw [pack]
  simp only [hbiased]
  rw [if_neg hfits]
  by_cases hfull : 2 ^ 52 ≤ m
  · rw [if_pos hfull, if_pos (by rw [log2_full hfull h.lt]; rfl)]
  · have hlog : m.log2 < 52 := (Nat.log2_lt h.pos.ne').2 (by omega)
    rw [if_neg hfull, if_neg]
    change ¬m.log2 + 1 = 53
    omega

end GraphProfile.Binary

namespace GraphProfile.Decimal
open Float.Model (Format UnpackedFloat)
open Float.Model.UnpackedFloat
open Binary

def bits (x : Float) : BitVec Format.binary64.numBits := x.toBits.toBitVec

def sign (x : Float) : Sign := if isNegative x then .negative else .positive

/-- The exponent of a float as its bits have it. -/
def field (x : Float) : ℕ := x.toBits.toNat / exponentUnit % 2048

def trailing (x : Float) : ℕ := x.toBits.toNat % exponentUnit

def ofUnpacked (u : UnpackedFloat) : Float := .ofModel (.pack u)

section
variable (x : Float)

theorem toNat_exponent : (unpackExponent (bits x)).toNat = field x := toNat_unpackExponent (bits x)

theorem toNat_mantissa : (unpackMantissa (bits x)).toNat = trailing x := toNat_unpackMantissa (bits x)

theorem ofBitVec_unpackSign : Sign.ofBitVec (unpackSign (bits x)) = sign x := by
  have hlt : x.toBits.toNat < 2 ^ 64 := (bits x).isLt
  have hsign : (unpackSign (bits x)).toNat = x.toBits.toNat / 2 ^ 63 := toNat_unpackSign (bits x)
  have hiff : unpackSign (bits x) = 0#1 ↔ x.toBits.toNat / 2 ^ 63 = 0 := by
    rw [← BitVec.toNat_inj, hsign]
    rfl
  have hunit : signUnit = 2 ^ 63 := rfl
  rw [sign, isNegative, Sign.ofBitVec]
  by_cases h : signUnit ≤ x.toBits.toNat
  · have hset : unpackSign (bits x) ≠ 0#1 := by
      rw [Ne, hiff]
      omega
    rw [if_neg hset, if_pos (decide_eq_true h)]
  · have hclear : unpackSign (bits x) = 0#1 := by
      rw [hiff]
      omega
    rw [if_pos hclear, if_neg (by simpa using h)]

theorem field_lt : field x < 2048 := Nat.mod_lt _ (by decide)

theorem trailing_lt : trailing x < 2 ^ 52 := Nat.mod_lt _ (by decide)

theorem exponent_eq_iff {n : ℕ} (hn : n < 2 ^ 11) : unpackExponent (bits x) = .ofNat 11 n ↔ field x = n := by
  have hmod : (BitVec.ofNat 11 n).toNat = n := Nat.mod_eq_of_lt hn
  rw [← BitVec.toNat_inj, toNat_exponent, hmod]

theorem mantissa_eq_zero_iff : unpackMantissa (bits x) = 0#52 ↔ trailing x = 0 := by
  rw [← BitVec.toNat_inj, toNat_mantissa]
  rfl

theorem significand_eq :
    significand x = if field x = 0 then (trailing x, -1074) else (2 ^ 52 + trailing x, (field x : ℤ) - 1075) := rfl

variable {x}

theorem canonical_significand (hfield : field x ≠ 2047) (hm : (significand x).1 ≠ 0) :
    Canonical (significand x).1 (significand x).2 := by
  have hfield' := field_lt x
  have htrailing := trailing_lt x
  rw [significand_eq] at hm ⊢
  by_cases hzero : field x = 0
  · rw [if_pos hzero] at hm ⊢
    exact ⟨Nat.pos_of_ne_zero hm, by omega, le_rfl, by norm_num, .inr rfl⟩
  · rw [if_neg hzero]
    exact ⟨by omega, by omega, by omega, by omega, .inl (by omega)⟩

theorem finite_congr {s : Sign} {m n : ℕ} {e f : ℤ} (hmn : m = n) (hef : e = f) (hm : 0 < m) :
    UnpackedFloat.finite s m e hm = .finite s n f (hmn ▸ hm) := by
  subst hmn hef
  rfl

theorem unpack_of_field (hfield : field x ≠ 2047) :
    x.toModel.unpack = if h : (significand x).1 = 0 then .zero (sign x)
      else .finite (sign x) (significand x).1 (significand x).2 (Nat.pos_of_ne_zero h) := by
  have hexponent : unpackExponent (bits x) ≠ -1#11 := fun h => hfield ((exponent_eq_iff x (by decide)).1 h)
  have hbias : (Format.binary64.exponentBias : ℤ) + Format.binary64.mantissaBitsWithoutImplicit = 1075 := rfl
  change unpack .binary64 (bits x) = _
  simp only [unpack, ofBitVec_unpackSign, hbias, toNat_exponent]
  rw [if_neg hexponent]
  by_cases hzero : field x = 0
  · have hsignificand : significand x = (trailing x, -1074) := by rw [significand_eq, if_pos hzero]
    rw [if_pos ((exponent_eq_iff x (by decide)).2 hzero)]
    by_cases hm : trailing x = 0
    · rw [dif_pos ((mantissa_eq_zero_iff x).2 hm), dif_pos (by rw [hsignificand, hm])]
    · rw [dif_neg (mt (mantissa_eq_zero_iff x).1 hm), dif_neg (by rwa [hsignificand])]
      refine finite_congr ?_ ?_ _
      · rw [hsignificand, toNat_mantissa]
      · rw [hsignificand, hzero]
        rfl
  · have hsignificand : significand x = (2 ^ 52 + trailing x, (field x : ℤ) - 1075) := by
      rw [significand_eq, if_neg hzero]
    rw [if_neg (mt (exponent_eq_iff x (by decide)).1 hzero), dif_neg (by rw [hsignificand]; simp)]
    refine finite_congr ?_ ?_ _
    · rw [hsignificand, toNat_full, toNat_mantissa]
    · rw [hsignificand]

theorem unpack_of_field_eq (hfield : field x = 2047) :
    x.toModel.unpack = if trailing x = 0 then .infinity (sign x) else .notANumber := by
  have hexponent : unpackExponent (bits x) = -1#11 := (exponent_eq_iff x (by decide)).2 hfield
  change unpack .binary64 (bits x) = _
  simp only [unpack, ofBitVec_unpackSign]
  rw [if_pos hexponent]
  by_cases hm : trailing x = 0
  · rw [if_pos ((mantissa_eq_zero_iff x).2 hm), if_pos hm]
  · rw [if_neg (mt (mantissa_eq_zero_iff x).1 hm), if_neg hm]

theorem pack_unpack (hfield : field x ≠ 2047) : pack .binary64 x.toModel.unpack = bits x := by
  have hcomponents := packComponents_eq (bits x)
  have htrailing := trailing_lt x
  rw [ofBitVec_unpackSign] at hcomponents
  have hmantissa : BitVec.ofNat 52 (trailing x) = unpackMantissa (bits x) := by
    rw [← toNat_mantissa, BitVec.ofNat_toNat, BitVec.setWidth_eq]
  rw [unpack_of_field hfield, ← hcomponents]
  by_cases hzero : field x = 0
  · have hexponent : unpackExponent (bits x) = 0#11 := (exponent_eq_iff x (by decide)).2 hzero
    have hsignificand : significand x = (trailing x, -1074) := by rw [significand_eq, if_pos hzero]
    by_cases hm : trailing x = 0
    · rw [dif_pos (by rw [hsignificand, hm]), hexponent, (mantissa_eq_zero_iff x).2 hm]
      rfl
    · have hcanonical := canonical_significand hfield (by rwa [hsignificand])
      rw [dif_neg (by rwa [hsignificand]), pack_finite _ hcanonical, hsignificand, if_neg (by simpa using htrailing),
        hexponent, hmantissa]
  · have hsignificand : significand x = (2 ^ 52 + trailing x, (field x : ℤ) - 1075) := by
      rw [significand_eq, if_neg hzero]
    have hcanonical := canonical_significand hfield (by rw [hsignificand]; simp)
    have hexponent : BitVec.ofNat 11 ((field x : ℤ) - 1075 + 1075).toNat = unpackExponent (bits x) := by
      rw [Int.sub_add_cancel, Int.toNat_natCast]
      exact ((exponent_eq_iff x (field_lt x)).2 rfl).symm
    have hfull : BitVec.ofNat 52 (2 ^ 52 + trailing x) = unpackMantissa (bits x) := by
      rw [← hmantissa, ← BitVec.toNat_inj, BitVec.toNat_ofNat, BitVec.toNat_ofNat, Nat.add_mod_left]
    rw [dif_neg (by rw [hsignificand]; simp), pack_finite _ hcanonical, hsignificand, if_pos (Nat.le_add_right _ _),
      hexponent, hfull]

theorem ofUnpacked_unpack (x : Float) : ofUnpacked x.toModel.unpack = x := by
  have hpack : pack .binary64 x.toModel.unpack = bits x := by
    by_cases hfield : field x = 2047
    · have hexponent : unpackExponent (bits x) = -1#11 := (exponent_eq_iff x (by decide)).2 hfield
      rw [unpack_of_field_eq hfield]
      by_cases hm : trailing x = 0
      · have hcomponents := packComponents_eq (bits x)
        rw [ofBitVec_unpackSign, hexponent, (mantissa_eq_zero_iff x).2 hm] at hcomponents
        rw [if_pos hm]
        exact hcomponents
      · rw [if_neg hm]
        exact (x.toModel.valid.eq_packedNaN hexponent (mt (mantissa_eq_zero_iff x).1 hm)).symm
    · exact pack_unpack hfield
  obtain ⟨⟨word, valid⟩⟩ := x
  have hword : UInt64.ofBitVec (pack .binary64 (Float.ofModel ⟨word, valid⟩).toModel.unpack) = word :=
    congrArg UInt64.ofBitVec hpack
  rw [ofUnpacked, Float.Model.pack]
  simp only [hword]

theorem parts_of_toNat {s : Sign} {e m : ℕ} (he : e < 2 ^ 11) (hm : m < 2 ^ 52)
    (h : x.toBits.toNat = signBit s * 2 ^ 63 + e * 2 ^ 52 + m) : sign x = s ∧ field x = e ∧ trailing x = m := by
  have hfield : field x = x.toBits.toNat / 2 ^ 52 % 2 ^ 11 := rfl
  have htrailing : trailing x = x.toBits.toNat % 2 ^ 52 := rfl
  have hunit : signUnit = 2 ^ 63 := rfl
  refine ⟨?_, by omega, by omega⟩
  rw [sign, isNegative, hunit, h]
  cases s with
  | negative =>
    rw [if_pos]
    simp [signBit]
    omega
  | positive =>
    rw [if_neg]
    simp [signBit]
    omega

theorem unpack_of_significand {s : Sign} {m : ℕ} {e : ℤ} (hm : 0 < m) (hsign : sign x = s) (hfield : field x ≠ 2047)
    (h : significand x = (m, e)) : x.toModel.unpack = .finite s m e hm := by
  rw [unpack_of_field hfield, hsign, dif_neg (by rw [h]; exact hm.ne')]
  exact finite_congr (by rw [h]) (by rw [h]) _

theorem unpack_ofUnpacked_finite (s : Sign) {m : ℕ} {e : ℤ} (h : Canonical m e) :
    (ofUnpacked (.finite s m e h.pos)).toModel.unpack = .finite s m e h.pos := by
  have hmin := h.minimal
  have hmax := h.maximal
  have hlt := h.lt
  have hbits : (ofUnpacked (.finite s m e h.pos)).toBits.toNat =
      (pack .binary64 (.finite s m e h.pos)).toNat := rfl
  have hm : (BitVec.ofNat 52 m).toNat = m % 2 ^ 52 := BitVec.toNat_ofNat ..
  rw [pack_finite s h] at hbits
  by_cases hfull : 2 ^ 52 ≤ m
  · have he : (BitVec.ofNat 11 (e + 1075).toNat).toNat = (e + 1075).toNat := Nat.mod_eq_of_lt (by omega)
    rw [if_pos hfull, toNat_packComponents, he, hm] at hbits
    obtain ⟨hsign, hfield, htrailing⟩ := parts_of_toNat (by omega) (Nat.mod_lt _ (by norm_num)) hbits
    apply unpack_of_significand h.pos hsign (by omega)
    rw [significand_eq, if_neg (by omega), htrailing, hfield]
    exact Prod.ext (by omega : 2 ^ 52 + m % 2 ^ 52 = m) (by omega : ((e + 1075).toNat : ℤ) - 1075 = e)
  · have he : (0#11).toNat = 0 := rfl
    rw [if_neg hfull, toNat_packComponents, he, hm] at hbits
    obtain ⟨hsign, hfield, htrailing⟩ := parts_of_toNat (by norm_num) (Nat.mod_lt _ (by norm_num)) hbits
    apply unpack_of_significand h.pos hsign (by omega)
    rw [significand_eq, if_pos hfield, htrailing]
    exact Prod.ext (by omega : m % 2 ^ 52 = m) (h.full.resolve_left hfull).symm

theorem neg_eq (x : Float) : -x = ofUnpacked x.toModel.unpack.neg := rfl

theorem isFinite_eq (x : Float) : x.isFinite = x.toModel.unpack.isFinite := rfl

/-- A finite float is zero or has a canonical number of units. -/
theorem finite_cases (hfinite : x.isFinite) :
    x = ofUnpacked (.zero (sign x)) ∧ significand x = (0, -1074) ∨
      ∃ h : Canonical (significand x).1 (significand x).2,
        x = ofUnpacked (.finite (sign x) (significand x).1 (significand x).2 h.pos) := by
  have hfield : field x ≠ 2047 := by
    intro hfield
    rw [isFinite_eq, unpack_of_field_eq hfield] at hfinite
    split at hfinite <;> cases hfinite
  have hunpack := unpack_of_field hfield
  have hself := ofUnpacked_unpack x
  by_cases hm : (significand x).1 = 0
  · left
    rw [hunpack, dif_pos hm] at hself
    refine ⟨hself.symm, ?_⟩
    rw [significand_eq] at hm ⊢
    by_cases hzero : field x = 0
    · rw [if_pos hzero] at hm ⊢
      exact Prod.ext hm rfl
    · rw [if_neg hzero] at hm
      simp at hm
  · right
    rw [hunpack, dif_neg hm] at hself
    exact ⟨canonical_significand hfield hm, hself.symm⟩

theorem unpack_ofUnpacked_zero (s : Sign) : (ofUnpacked (.zero s)).toModel.unpack = .zero s := by
  cases s <;> rfl

theorem unpack_ofUnpacked_infinity (s : Sign) : (ofUnpacked (.infinity s)).toModel.unpack = .infinity s := by
  cases s <;> rfl

theorem unpack_neg (x : Float) : (-x).toModel.unpack = x.toModel.unpack.neg := by
  rw [neg_eq]
  by_cases hfield : field x = 2047
  · rw [unpack_of_field_eq hfield]
    split
    · exact unpack_ofUnpacked_infinity _
    · rfl
  · rw [unpack_of_field hfield]
    split
    · exact unpack_ofUnpacked_zero _
    · rename_i hm
      exact unpack_ofUnpacked_finite _ (canonical_significand hfield hm)

theorem neg_neg_float (x : Float) : - -x = x := by
  have hneg : x.toModel.unpack.neg.neg = x.toModel.unpack := by
    cases x.toModel.unpack with
    | notANumber => rfl
    | infinity s => cases s <;> rfl
    | zero s => cases s <;> rfl
    | finite s m e hm => cases s <;> rfl
  rw [neg_eq, unpack_neg, hneg, ofUnpacked_unpack]

theorem signed_magnitude (x : Float) : (if isNegative x then -magnitude x else magnitude x) = x := by
  rw [magnitude]
  split
  · exact neg_neg_float x
  · rfl

theorem magnitude_of_unpack {u v : UnpackedFloat} (hself : x = ofUnpacked u) (hu : x.toModel.unpack = u)
    (hpositive : sign x = .positive → u = v) (hnegative : sign x = .negative → u.neg = v) :
    magnitude x = ofUnpacked v := by
  rw [magnitude]
  rw [sign] at hpositive hnegative
  split at hpositive
  · rename_i hneg
    rw [if_pos hneg] at hnegative ⊢
    rw [neg_eq, hu, hnegative rfl]
  · rename_i hpos
    rw [if_neg hpos, ← hpositive rfl]
    exact hself

theorem zero_eq : (0 : Float) = ofUnpacked (.zero .positive) := by decide +kernel

theorem magnitude_cases (hfinite : x.isFinite) :
    magnitude x = 0 ∧ (significand x).1 = 0 ∨
      ∃ h : Canonical (significand x).1 (significand x).2,
        magnitude x = ofUnpacked (.finite .positive (significand x).1 (significand x).2 h.pos) := by
  rcases finite_cases hfinite with ⟨hself, hm⟩ | ⟨h, hself⟩
  · left
    have hunpack := congrArg (fun y => y.toModel.unpack) hself
    rw [unpack_ofUnpacked_zero] at hunpack
    rw [zero_eq]
    refine ⟨magnitude_of_unpack hself hunpack ?_ ?_, congrArg Prod.fst hm⟩
    · intro hs
      rw [hs]
    · intro hs
      rw [hs]
      rfl
  · right
    have hunpack := congrArg (fun y => y.toModel.unpack) hself
    rw [unpack_ofUnpacked_finite _ h] at hunpack
    refine ⟨h, magnitude_of_unpack hself hunpack ?_ ?_⟩
    · intro hs
      rw [hs]
    · intro hs
      rw [hs]
      rfl

end

theorem infinity_eq : infinity = ofUnpacked (.infinity .positive) := by decide +kernel

theorem neg_infinity_eq : -infinity = ofUnpacked (.infinity .negative) := by decide +kernel

theorem infinity_cases {x : Float} (hfinite : x.isFinite = false) (hnan : x.isNaN = false) :
    x = if isNegative x then -infinity else infinity := by
  have hself := ofUnpacked_unpack x
  have hfield : field x = 2047 := by
    by_contra hfield
    rw [isFinite_eq, unpack_of_field hfield] at hfinite
    split at hfinite <;> cases hfinite
  rw [unpack_of_field_eq hfield] at hself
  by_cases htrailing : trailing x = 0
  · rw [if_pos htrailing, sign] at hself
    by_cases hnegative : isNegative x
    · rw [if_pos hnegative] at hself ⊢
      rw [neg_infinity_eq, hself]
    · rw [if_neg hnegative] at hself ⊢
      rw [infinity_eq, hself]
  · change x.toModel.unpack.isNaN = false at hnan
    rw [unpack_of_field_eq hfield, if_neg htrailing] at hnan
    cases hnan

end GraphProfile.Decimal
