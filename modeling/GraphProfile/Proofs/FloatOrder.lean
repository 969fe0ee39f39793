import GraphProfile.Proofs.Packing
import GraphProfile.Statistics.Threshold

set_option autoImplicit false

namespace GraphProfile.Binary
open Float.Model (UnpackedFloat)
open Float.Model.UnpackedFloat

theorem compare_congr {α β : Type} [LinearOrder α] [LinearOrder β] {a b : α} {c d : β} (hlt : a < b ↔ c < d)
    (hgt : b < a ↔ d < c) : compare a b = compare c d := by
  rcases lt_trichotomy a b with h | rfl | h
  · rw [compare_lt_iff_lt.2 h, compare_lt_iff_lt.2 (hlt.1 h)]
  · have heq : c = d := le_antisymm (not_lt.1 (mt hgt.2 (lt_irrefl a))) (not_lt.1 (mt hlt.2 (lt_irrefl a)))
    rw [compare_eq_iff_eq.2 rfl, compare_eq_iff_eq.2 heq]
  · rw [compare_gt_iff_gt.2 h, compare_gt_iff_gt.2 (hgt.1 h)]

/-- The place of `m * 2 ^ e` among all magnitudes. -/
def ordinal (m : ℕ) (e : ℤ) : ℕ := (e + 1074).toNat * 2 ^ 52 + m

def infinityOrdinal : ℕ := 2047 * 2 ^ 52

section
variable {m n : ℕ} {e f : ℤ} (hm : Canonical m e) (hn : Canonical n f)
include hm

theorem Canonical.ordinal_pos : 0 < ordinal m e := Nat.add_pos_right _ hm.pos

theorem Canonical.ordinal_lt : ordinal m e < infinityOrdinal := by
  obtain ⟨-, hlt, hmin, hmax, -⟩ := hm
  rw [ordinal, infinityOrdinal]
  omega

include hn

/-- Next to a lesser exponent the mantissa is full. -/
theorem Canonical.ordinal_lt_of_lt (h : e < f) : ordinal m e < ordinal n f := by
  have hlt := hm.lt
  have hmin := hm.minimal
  have hfull := hn.full
  rw [ordinal, ordinal]
  omega

theorem Canonical.compare_eq : (compare e f).then (compare m n) = compare (ordinal m e) (ordinal n f) := by
  rcases lt_trichotomy e f with h | rfl | h
  · rw [compare_lt_iff_lt.2 h, compare_lt_iff_lt.2 (hm.ordinal_lt_of_lt hn h)]
    rfl
  · rw [compare_eq_iff_eq.2 rfl, Ordering.eq_then]
    exact compare_congr (Nat.add_lt_add_iff_left).symm (Nat.add_lt_add_iff_left).symm
  · rw [compare_gt_iff_gt.2 h, compare_gt_iff_gt.2 (hn.ordinal_lt_of_lt hm h)]
    rfl

end

def signed : Sign → ℕ → ℤ
  | .positive, n => n
  | .negative, n => -n

/-- Where an unpacked float stands on the number line. -/
def level : UnpackedFloat → ℤ
  | .notANumber => 0
  | .zero _ => 0
  | .finite s m e _ => signed s (ordinal m e)
  | .infinity s => signed s infinityOrdinal

inductive Comparable : UnpackedFloat → Prop where
  | zero (s : Sign) : Comparable (.zero s)
  | finite (s : Sign) {m : ℕ} {e : ℤ} (h : Canonical m e) : Comparable (.finite s m e h.pos)
  | infinity (s : Sign) : Comparable (.infinity s)

section
variable {u v : UnpackedFloat}

theorem compare_of_level_lt (h : u.compare v = some .lt) (hlevel : level u < level v) :
    u.compare v = some (compare (level u) (level v)) := by
  rw [h, compare_lt_iff_lt.2 hlevel]

theorem compare_of_level_gt (h : u.compare v = some .gt) (hlevel : level v < level u) :
    u.compare v = some (compare (level u) (level v)) := by
  rw [h, compare_gt_iff_gt.2 hlevel]

theorem compare_level_finite (s t : Sign) {m n : ℕ} {e f : ℤ} (hm : Canonical m e) (hn : Canonical n f) :
    (UnpackedFloat.finite s m e hm.pos).compare (.finite t n f hn.pos) =
      some (compare (signed s (ordinal m e)) (signed t (ordinal n f))) := by
  have hm₀ := hm.ordinal_pos
  have hn₀ := hn.ordinal_pos
  cases s with
  | positive =>
    cases t with
    | positive =>
      have hcompare : compare (signed .positive (ordinal m e)) (signed .positive (ordinal n f)) =
          compare (ordinal m e) (ordinal n f) := compare_congr Int.ofNat_lt Int.ofNat_lt
      rw [hcompare, ← hm.compare_eq hn]
      rfl
    | negative => exact compare_of_level_gt rfl (by simp only [level, signed]; omega)
  | negative =>
    cases t with
    | positive => exact compare_of_level_lt rfl (by simp only [level, signed]; omega)
    | negative =>
      have hcompare : compare (signed .negative (ordinal m e)) (signed .negative (ordinal n f)) =
          compare (ordinal n f) (ordinal m e) :=
        compare_congr (by simp only [signed]; omega) (by simp only [signed]; omega)
      rw [hcompare, ← Nat.compare_swap, ← hm.compare_eq hn]
      rfl

theorem compare_level_zero (s : Sign) (hv : Comparable v) :
    (UnpackedFloat.zero s).compare v = some (compare (level (.zero s)) (level v)) := by
  have hinfinity : 0 < infinityOrdinal := by decide
  cases hv with
  | zero t => rfl
  | finite t hn =>
    have hn₀ := hn.ordinal_pos
    cases t with
    | positive => exact compare_of_level_lt rfl (by simp only [level, signed]; omega)
    | negative => exact compare_of_level_gt rfl (by simp only [level, signed]; omega)
  | infinity t =>
    cases t with
    | positive => exact compare_of_level_lt rfl (by simp only [level, signed]; omega)
    | negative => exact compare_of_level_gt rfl (by simp only [level, signed]; omega)

theorem compare_level_infinity (s : Sign) (hv : Comparable v) :
    (UnpackedFloat.infinity s).compare v = some (compare (level (.infinity s)) (level v)) := by
  have hinfinity : 0 < infinityOrdinal := by decide
  cases hv with
  | zero t =>
    cases s with
    | positive => exact compare_of_level_gt rfl (by simp only [level, signed]; omega)
    | negative => exact compare_of_level_lt rfl (by simp only [level, signed]; omega)
  | finite t hn =>
    have hn₁ := hn.ordinal_lt
    cases s with
    | positive => exact compare_of_level_gt rfl (by cases t <;> simp only [level, signed] <;> omega)
    | negative => exact compare_of_level_lt rfl (by cases t <;> simp only [level, signed] <;> omega)
  | infinity t =>
    cases s with
    | positive =>
      cases t with
      | positive => exact congrArg some (compare_eq_iff_eq.2 rfl).symm
      | negative => exact compare_of_level_gt rfl (by simp only [level, signed]; omega)
    | negative =>
      cases t with
      | positive => exact compare_of_level_lt rfl (by simp only [level, signed]; omega)
      | negative => exact congrArg some (compare_eq_iff_eq.2 rfl).symm

theorem compare_level (hu : Comparable u) (hv : Comparable v) : u.compare v = some (compare (level u) (level v)) := by
  cases hu with
  | zero s => exact compare_level_zero s hv
  | infinity s => exact compare_level_infinity s hv
  | finite s hm =>
    have hm₀ := hm.ordinal_pos
    have hm₁ := hm.ordinal_lt
    cases hv with
    | zero t =>
      cases s with
      | positive => exact compare_of_level_gt rfl (by simp only [level, signed]; omega)
      | negative => exact compare_of_level_lt rfl (by simp only [level, signed]; omega)
    | finite t hn => exact compare_level_finite s t hm hn
    | infinity t =>
      cases t with
      | positive => exact compare_of_level_lt rfl (by cases s <;> simp only [level, signed] <;> omega)
      | negative => exact compare_of_level_gt rfl (by cases s <;> simp only [level, signed] <;> omega)

end
end GraphProfile.Binary

namespace GraphProfile.Decimal
open Float.Model.UnpackedFloat
open Binary

/-- The bits of a float without its sign. -/
def size (x : Float) : ℕ := x.toBits.toNat % signUnit

/-- Where a float stands on the number line, counted in floats from zero. -/
def place (x : Float) : ℤ := signed (sign x) (size x)

section
variable (x : Float)

theorem size_eq : size x = field x * 2 ^ 52 + trailing x := by
  have hsign : signUnit = 2 ^ 63 := rfl
  have hfield : field x = x.toBits.toNat / 2 ^ 52 % 2 ^ 11 := rfl
  have htrailing : trailing x = x.toBits.toNat % 2 ^ 52 := rfl
  rw [size, hsign, hfield, htrailing]
  omega

theorem ordinal_significand : ordinal (significand x).1 (significand x).2 = size x := by
  rw [significand_eq, size_eq, ordinal]
  by_cases hzero : field x = 0
  · rw [if_pos hzero, hzero]
    rfl
  · rw [if_neg hzero]
    omega

variable {x}

theorem isNaN_of_isFinite (h : x.isFinite) : x.isNaN = false := by
  have hfinite : x.toModel.unpack.isFinite = true := h
  change x.toModel.unpack.isNaN = false
  cases hunpack : x.toModel.unpack with
  | notANumber =>
    rw [hunpack] at hfinite
    cases hfinite
  | _ => rfl

theorem size_of_zero (h : (significand x).1 = 0) : size x = 0 := by
  rw [significand_eq] at h
  rw [size_eq]
  split at h <;> omega

theorem level_unpack (h : x.isNaN = false) : Comparable x.toModel.unpack ∧ level x.toModel.unpack = place x := by
  have hnumber : x.toModel.unpack ≠ .notANumber := by
    intro hnan
    have htrue : x.isNaN = true := congrArg isNaN hnan
    rw [h] at htrue
    cases htrue
  rw [place]
  by_cases hfield : field x = 2047
  · rw [unpack_of_field_eq hfield] at hnumber ⊢
    by_cases htrailing : trailing x = 0
    · rw [if_pos htrailing, size_eq, hfield, htrailing]
      exact ⟨.infinity _, rfl⟩
    · rw [if_neg htrailing] at hnumber
      exact absurd rfl hnumber
  · rw [unpack_of_field hfield]
    by_cases hm : (significand x).1 = 0
    · rw [dif_pos hm, size_of_zero hm]
      exact ⟨.zero _, by cases sign x <;> rfl⟩
    · rw [dif_neg hm, ← ordinal_significand]
      exact ⟨.finite _ (canonical_significand hfield hm), rfl⟩

end

section
variable {x y : Float} (hx : x.isNaN = false) (hy : y.isNaN = false)
include hx hy

theorem compare_place : x.toModel.unpack.compare y.toModel.unpack = some (compare (place x) (place y)) := by
  obtain ⟨hcomparable, hlevel⟩ := level_unpack hx
  obtain ⟨hcomparable', hlevel'⟩ := level_unpack hy
  rw [compare_level hcomparable hcomparable', hlevel, hlevel']

theorem lt_iff_place : x < y ↔ place x < place y := by
  have hlt : x < y ↔ (x.toModel.unpack.compare y.toModel.unpack == some .lt) = true :=
    decide_eq_true_iff (p := x.toModel < y.toModel)
  rw [hlt, compare_place hx hy, beq_iff_eq, Option.some_inj, compare_lt_iff_lt]

theorem le_iff_place : x ≤ y ↔ place x ≤ place y := by
  have hle : x ≤ y ↔ (x.toModel.unpack.compare y.toModel.unpack).any Ordering.isLE = true :=
    decide_eq_true_iff (p := x.toModel ≤ y.toModel)
  rw [hle, compare_place hx hy, Option.any_some, Std.isLE_compare]

theorem beq_iff_place : (x == y) = true ↔ place x = place y := by
  have hbeq : (x == y) = (x.toModel.unpack.compare y.toModel.unpack == some .eq) := rfl
  rw [hbeq, compare_place hx hy, beq_iff_eq, Option.some_inj, compare_eq_iff_eq]

end

theorem unpack_of_isNaN {x : Float} (h : x.isNaN = true) : x.toModel.unpack = .notANumber := by
  have hnan : x.toModel.unpack.isNaN = true := h
  cases hunpack : x.toModel.unpack with
  | notANumber => rfl
  | _ =>
    rw [hunpack] at hnan
    cases hnan

theorem compare_of_isNaN {x y : Float} (h : x.isNaN = true ∨ y.isNaN = true) :
    x.toModel.unpack.compare y.toModel.unpack = none := by
  rcases h with hx | hy
  · rw [unpack_of_isNaN hx]
    rfl
  · rw [unpack_of_isNaN hy]
    cases x.toModel.unpack <;> rfl

section
variable {x y z : Float}

theorem isNaN_of_compare {o : Ordering} (h : x.toModel.unpack.compare y.toModel.unpack = some o) :
    x.isNaN = false ∧ y.isNaN = false := by
  constructor
  · cases hx : x.isNaN with
    | false => rfl
    | true =>
      rw [compare_of_isNaN (.inl hx)] at h
      cases h
  · cases hy : y.isNaN with
    | false => rfl
    | true =>
      rw [compare_of_isNaN (.inr hy)] at h
      cases h

theorem isNaN_of_le (h : x ≤ y) : x.isNaN = false ∧ y.isNaN = false := by
  have hle : (x.toModel.unpack.compare y.toModel.unpack).any Ordering.isLE = true :=
    (decide_eq_true_iff (p := x.toModel ≤ y.toModel)).1 h
  obtain ⟨o, ho, -⟩ := (Option.any_eq_true ..).1 hle
  exact isNaN_of_compare ho

theorem isNaN_of_lt (h : x < y) : x.isNaN = false ∧ y.isNaN = false := by
  have hlt : (x.toModel.unpack.compare y.toModel.unpack == some .lt) = true :=
    (decide_eq_true_iff (p := x.toModel < y.toModel)).1 h
  exact isNaN_of_compare (eq_of_beq hlt)

theorem float_le_refl (hx : x.isNaN = false) : x ≤ x := (le_iff_place hx hx).2 le_rfl

theorem float_beq_self (hx : x.isNaN = false) : (x == x) = true := (beq_iff_place hx hx).2 rfl

theorem float_le_trans (hxy : x ≤ y) (hyz : y ≤ z) : x ≤ z := by
  obtain ⟨hx, hy⟩ := isNaN_of_le hxy
  obtain ⟨-, hz⟩ := isNaN_of_le hyz
  rw [le_iff_place hx hy] at hxy
  rw [le_iff_place hy hz] at hyz
  rw [le_iff_place hx hz]
  exact hxy.trans hyz

theorem float_le_of_lt (h : x < y) : x ≤ y := by
  obtain ⟨hx, hy⟩ := isNaN_of_lt h
  rw [le_iff_place hx hy]
  rw [lt_iff_place hx hy] at h
  exact h.le

theorem float_lt_of_lt_of_le (hxy : x < y) (hyz : y ≤ z) : x < z := by
  obtain ⟨hx, hy⟩ := isNaN_of_lt hxy
  obtain ⟨-, hz⟩ := isNaN_of_le hyz
  rw [lt_iff_place hx hy] at hxy
  rw [le_iff_place hy hz] at hyz
  rw [lt_iff_place hx hz]
  exact hxy.trans_le hyz

theorem float_lt_of_le_of_lt (hxy : x ≤ y) (hyz : y < z) : x < z := by
  obtain ⟨hx, hy⟩ := isNaN_of_le hxy
  obtain ⟨-, hz⟩ := isNaN_of_lt hyz
  rw [le_iff_place hx hy] at hxy
  rw [lt_iff_place hy hz] at hyz
  rw [lt_iff_place hx hz]
  exact hxy.trans_lt hyz

theorem float_not_le (hx : x.isNaN = false) (hy : y.isNaN = false) : ¬x ≤ y ↔ y < x := by
  rw [le_iff_place hx hy, lt_iff_place hy hx, not_le]

theorem float_not_le_of_lt (h : x < y) : ¬y ≤ x := by
  obtain ⟨hx, hy⟩ := isNaN_of_lt h
  exact (float_not_le hy hx).2 h

theorem float_not_lt_of_le (h : x ≤ y) : ¬y < x := fun hlt => float_not_le_of_lt hlt h

end

theorem rank_eq (x : Float) : (Threshold.mk x).rank = if isNegative x then place x - 1 else place x := by
  have hlt : x.toBits.toNat < 2 ^ 64 := (bits x).isLt
  have hsign : signUnit = 2 ^ 63 := rfl
  rw [Threshold.rank, place, sign, isNegative, size, hsign]
  simp only [decide_eq_true_eq]
  split <;> split
  · omega
  · simp only [signed]
    omega
  · simp only [signed]
    omega
  · omega

theorem eq_of_place {x y : Float} (h : place x = place y) (hsign : isNegative x = isNegative y) : x = y := by
  have hrank : (Threshold.mk x).rank = (Threshold.mk y).rank := by rw [rank_eq, rank_eq, h, hsign]
  exact congrArg Threshold.value (Threshold.rank_injective hrank)

theorem isFinite_zero : (0 : Float).isFinite := by decide +kernel

theorem place_zero : place 0 = 0 := by decide +kernel

theorem place_negZero : place (-0) = 0 := by decide +kernel

theorem eq_zero_of_place {x : Float} (h : place x = 0) : x = if isNegative x then -0 else 0 := by
  by_cases hneg : isNegative x
  · rw [if_pos hneg]
    exact eq_of_place (by rw [h, place_negZero]) (by rw [hneg]; decide +kernel)
  · rw [if_neg hneg]
    exact eq_of_place (by rw [h, place_zero]) (by rw [Bool.eq_false_of_not_eq_true hneg]; decide +kernel)

theorem zeros_of_signs {x y : Float} (h : place x = place y) (hx : isNegative x = true) (hy : isNegative y = false) :
    place x = 0 ∧ x = -0 ∧ y = 0 := by
  have hplace : place x = 0 := by
    have hplaces := h
    simp only [place, sign, hx, hy, if_true, Bool.false_eq_true, if_false, signed] at hplaces ⊢
    omega
  have hnegZero := eq_zero_of_place hplace
  have hzero := eq_zero_of_place (h ▸ hplace)
  rw [hx, if_pos rfl] at hnegZero
  rw [hy, if_neg Bool.false_ne_true] at hzero
  exact ⟨hplace, hnegZero, hzero⟩

/-- Different floats in one place are the two zeros. -/
theorem zeros_of_place {x y : Float} (h : place x = place y) (hne : x ≠ y) :
    place x = 0 ∧ (x = 0 ∧ y = -0 ∨ x = -0 ∧ y = 0) := by
  have hsign : isNegative x ≠ isNegative y := fun hsign => hne (eq_of_place h hsign)
  cases hx : isNegative x with
  | false =>
    have hy : isNegative y = true := by simpa [hx] using hsign
    obtain ⟨hplace, hnegZero, hzero⟩ := zeros_of_signs h.symm hy hx
    exact ⟨h ▸ hplace, .inl ⟨hzero, hnegZero⟩⟩
  | true =>
    have hy : isNegative y = false := by simpa [hx] using hsign
    obtain ⟨hplace, hnegZero, hzero⟩ := zeros_of_signs h hx hy
    exact ⟨hplace, .inr ⟨hnegZero, hzero⟩⟩

theorem eq_of_le_of_le {x y : Float} (hxy : x ≤ y) (hyx : y ≤ x) (hx : x ≠ -0) (hy : y ≠ -0) : x = y := by
  obtain ⟨hxn, hyn⟩ := isNaN_of_le hxy
  rw [le_iff_place hxn hyn] at hxy
  rw [le_iff_place hyn hxn] at hyx
  by_contra hne
  rcases (zeros_of_place (hxy.antisymm hyx) hne).2 with ⟨-, hzero⟩ | ⟨hzero, -⟩
  · exact hy hzero
  · exact hx hzero

theorem lt_of_le_of_ne_float {x y : Float} (hxy : x ≤ y) (hne : x ≠ y) (hx : x ≠ -0) (hy : y ≠ -0) : x < y := by
  obtain ⟨hxn, hyn⟩ := isNaN_of_le hxy
  rw [← float_not_le hyn hxn]
  exact fun hyx => hne (eq_of_le_of_le hxy hyx hx hy)

theorem isNaN_infinity : infinity.isNaN = false := by decide +kernel

theorem place_infinity : place infinity = infinityOrdinal := by decide +kernel

theorem place_negInfinity : place (-infinity) = -infinityOrdinal := by decide +kernel

theorem size_lt_infinity {x : Float} (h : x.isFinite) : size x < infinityOrdinal := by
  have hpos : 0 < infinityOrdinal := by decide
  rw [← ordinal_significand]
  rcases finite_cases h with ⟨-, hzero⟩ | ⟨hcanonical, -⟩
  · rw [hzero]
    exact hpos
  · exact hcanonical.ordinal_lt

theorem place_lt_infinity {x : Float} (h : x.isFinite) : place x < place infinity := by
  have hsize := size_lt_infinity h
  rw [place_infinity, place]
  cases sign x <;> simp only [signed] <;> omega

theorem negInfinity_lt_place {x : Float} (h : x.isFinite) : place (-infinity) < place x := by
  have hsize := size_lt_infinity h
  rw [place_negInfinity, place]
  cases sign x <;> simp only [signed] <;> omega

end GraphProfile.Decimal
