set_option autoImplicit false

/-!
# Decimals and the finite floats

A decimal is `digits * 10 ^ exponent`. The magnitude of every finite float is one exactly
(`Decimal.ofFloat`), since a power of two below one is a power of five over a power of ten. Back again
there is `Decimal.toFloat`, the nearest float, ties going to the even significand.
-/
namespace GraphProfile

structure Decimal where
  digits : Nat
  exponent : Int
deriving DecidableEq

namespace Decimal

def digitCount (n : Nat) : Nat := (Nat.toDigits 10 n).length

def infinity : Float := Float.ofBits 0x7FF0000000000000

/-- The place value of a float's sign among its bits, `2 ^ 63`. -/
def signUnit : Nat := 0x8000000000000000

/-- The place value of the least bit of a float's exponent, `2 ^ 52`; eleven bits belong to it. -/
def exponentUnit : Nat := 0x10000000000000

def isNegative (x : Float) : Bool := decide (signUnit ≤ x.toBits.toNat)

def magnitude (x : Float) : Float := if isNegative x then -x else x

/-- The magnitude of a finite float as `m * 2 ^ q`. -/
def significand (x : Float) : Nat × Int :=
  let bits := x.toBits.toNat
  let field : Nat := bits / exponentUnit % 2048
  let fraction : Nat := bits % exponentUnit
  if field = 0 then (fraction, -1074) else (exponentUnit + fraction, field - 1075)

def ofSignificand (m : Nat) (q : Int) : Decimal :=
  if 0 ≤ q then ⟨m * Nat.pow 2 q.toNat, 0⟩ else ⟨m * Nat.pow 5 (-q).toNat, q⟩

def ofFloat (x : Float) : Decimal := ofSignificand (significand x).1 (significand x).2

/-- The order of magnitude is looked at first: from `10 ^ 310` on every decimal rounds to infinity and
    below `10 ^ -330` to zero, however long the exponent is written. -/
def toFloat (d : Decimal) : Float :=
  let leading := d.exponent + digitCount d.digits
  if d.digits = 0 ∨ leading ≤ -330 then 0
  else if 311 ≤ leading then infinity
  else Float.ofScientific d.digits (decide (d.exponent < 0)) d.exponent.natAbs

/-- Trailing zeros of the digits go into the exponent. -/
def trim (d : Decimal) : Decimal :=
  go (digitCount d.digits) d
where
  go : Nat → Decimal → Decimal
    | 0, d => d
    | n + 1, d => if d.digits ≠ 0 ∧ d.digits % 10 = 0 then go n ⟨d.digits / 10, d.exponent + 1⟩ else d

end Decimal
end GraphProfile
