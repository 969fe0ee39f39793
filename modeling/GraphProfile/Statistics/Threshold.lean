import Std.Data.ExtTreeMap
import GraphProfile.Decimal.Layout
import GraphProfile.Decimal.Literal

set_option autoImplicit false

/-!
# Thresholds

A threshold is a float as the key of a map. Floats are ordered totally by their place on the number line, a
negative zero before the positive one and what is no number after infinity, so keys are equal exactly when they
are the same float. The text of a threshold has the fewest digits that read back.
-/
namespace GraphProfile
open Std

structure Threshold where
  value : Float
deriving DecidableEq

namespace Threshold

/-- The bits of a float, read as sign and magnitude, ascend with the float. -/
def rank (t : Threshold) : Int :=
  let bits := t.value.toBits.toNat
  if bits < Decimal.signUnit then bits else Decimal.signUnit - 1 - bits

theorem rank_injective {s t : Threshold} (h : s.rank = t.rank) : s = t := by
  obtain ⟨⟨⟨x, _⟩⟩⟩ := s
  obtain ⟨⟨⟨y, _⟩⟩⟩ := t
  have hxy : x.toNat = y.toNat := by
    change ite (x.toNat < Decimal.signUnit) (x.toNat : Int) (Decimal.signUnit - 1 - x.toNat) =
      ite (y.toNat < Decimal.signUnit) (y.toNat : Int) (Decimal.signUnit - 1 - y.toNat) at h
    split at h <;> split at h <;> omega
  obtain rfl := UInt64.toNat_inj.1 hxy
  rfl

instance : Ord Threshold := ⟨compareOn rank⟩

instance : TransOrd Threshold := inferInstanceAs (TransCmp (compareOn rank))

instance : LawfulEqOrd Threshold where
  compare_self {t} := show compare t.rank t.rank = .eq from ReflCmp.compare_self
  eq_of_compare h := rank_injective (LawfulEqOrd.eq_of_compare h)

def layout : Decimal.Layout where
  tie := .up
  positional := fun lead => decide (-4 ≤ lead ∧ lead < 16)
  pointZero := true
  plusSign := false

def text (t : Threshold) : String := layout.text t.value

def parse (s : String) : Except Decimal.Malformed Threshold := (Decimal.parseFloat s).map Threshold.mk

def refusal (s : String) (cause : Decimal.Malformed) : String :=
  s!"invalid threshold '{s}': {cause.message}"

end Threshold
end GraphProfile
