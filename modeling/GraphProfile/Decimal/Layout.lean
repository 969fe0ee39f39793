import GraphProfile.Decimal.Shortest

set_option autoImplicit false

/-!
# Writing a float

A `Layout` holds the decisions of one written form: where positional notation ends, whether a whole number
keeps its point, and which of two equally near decimals is taken. `Layout.text` writes a float with its
fewest digits in that form; `fixed` writes it with a set number of places instead.
-/
namespace GraphProfile.Decimal

structure Layout where
  tie : Tie
  /-- Whether a number whose leading digit stands at this power of ten is written without an exponent. -/
  positional : Int → Bool
  /-- Whole positional numbers end in `.0`. -/
  pointZero : Bool
  /-- Exponents that are not negative carry a plus sign. -/
  plusSign : Bool

def zeros (n : Nat) : List Char := List.replicate n '0'

def digitChars (n : Nat) : List Char := Nat.toDigits 10 n

/-- The digits `ds` times `10 ^ e`, without an exponent. -/
def positionalChars (pointZero : Bool) (ds : List Char) (e : Int) : List Char :=
  if 0 ≤ e then ds ++ zeros e.toNat ++ (if pointZero then ['.', '0'] else [])
  else
    let places := (-e).toNat
    if places < ds.length then ds.take (ds.length - places) ++ '.' :: ds.drop (ds.length - places)
    else '0' :: '.' :: (zeros (places - ds.length) ++ ds)

/-- One digit before the point, the others behind it, and the power of ten of the first. -/
def exponentChars (plusSign : Bool) (ds : List Char) (lead : Int) : List Char :=
  ds.take 1 ++ (if ds.length ≤ 1 then [] else '.' :: ds.drop 1) ++ 'e' ::
    ((if lead < 0 then ['-'] else if plusSign then ['+'] else []) ++ digitChars lead.natAbs)

namespace Layout

def decimalChars (l : Layout) (d : Decimal) : List Char :=
  let ds := digitChars d.digits
  let lead := d.exponent + ds.length - 1
  if l.positional lead then positionalChars l.pointZero ds d.exponent
  else exponentChars l.plusSign ds lead

/-- Zero stands for itself, at the units place. -/
def finiteChars (l : Layout) (x : Float) : List Char :=
  (if isNegative x then ['-'] else []) ++
    (if magnitude x = 0 then l.decimalChars ⟨0, 0⟩ else l.decimalChars (shortest l.tie x))

def chars (l : Layout) (x : Float) : List Char :=
  if x.isNaN then ['N', 'a', 'N']
  else if x.isFinite then l.finiteChars x
  else if isNegative x then ['-', 'i', 'n', 'f'] else ['i', 'n', 'f']

def text (l : Layout) (x : Float) : String := String.ofList (l.chars x)

end Layout

/-- `d` in units of `10 ^ -places`, the exact value rounded, ties to even. -/
def scaled (d : Decimal) (places : Nat) : Nat :=
  let e := d.exponent + places
  if 0 ≤ e then d.digits * Nat.pow 10 e.toNat
  else
    let unit := Nat.pow 10 (-e).toNat
    let low := d.digits / unit
    match compare (2 * (d.digits % unit)) unit with
    | .lt => low
    | .gt => low + 1
    | .eq => if low % 2 = 0 then low else low + 1

/-- A float with exactly `places` places, at least one. -/
def fixed (places : Nat) (x : Float) : String :=
  if x.isNaN then "NaN"
  else if x.isFinite then
    let n := scaled (ofFloat x) places
    let whole := digitChars (n / Nat.pow 10 places)
    let part := digitChars (n % Nat.pow 10 places)
    (if isNegative x then "-" else "") ++
      String.ofList (whole ++ '.' :: (zeros (places - part.length) ++ part))
  else if isNegative x then "-inf" else "inf"

end GraphProfile.Decimal
