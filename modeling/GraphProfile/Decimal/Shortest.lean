import GraphProfile.Decimal.Basic

set_option autoImplicit false

/-!
# The fewest digits that name a float

Of all decimals that read back as a float, the ones with the fewest digits are wanted, and of those the
nearest. With `n` digits only two can be nearest: the exact value cut after `n` digits, and one unit more.
So the lengths are tried in turn, and each of the two is read back. The exact value itself ends the search.
-/
namespace GraphProfile.Decimal

/-- Which of two equally near decimals is written: the one with an even last digit, or the greater. -/
inductive Tie where
  | even
  | up
deriving DecidableEq

def dropped (d : Decimal) (n : Nat) : Nat := digitCount d.digits - n

def cut (d : Decimal) (n : Nat) : Decimal :=
  ⟨d.digits / Nat.pow 10 (d.dropped n), d.exponent + d.dropped n⟩

def next (d : Decimal) : Decimal := ⟨d.digits + 1, d.exponent⟩

/-- The nearer of the two decimals of `n` digits around `d`. -/
def round (tie : Tie) (d : Decimal) (n : Nat) : Decimal :=
  let low := d.cut n
  let unit := Nat.pow 10 (d.dropped n)
  match compare (2 * (d.digits % unit)) unit, tie with
  | .lt, _ => low
  | .gt, _ => low.next
  | .eq, .up => low.next
  | .eq, .even => if low.digits % 2 = 0 then low else low.next

def ReadsBack (d : Decimal) (x : Float) : Prop := d.toFloat = magnitude x

instance (d : Decimal) (x : Float) : Decidable (d.ReadsBack x) :=
  inferInstanceAs (Decidable (d.toFloat = magnitude x))

/-- The nearer neighbour is asked first; the other one may read back where it does not. -/
def withDigits? (tie : Tie) (x : Float) (n : Nat) : Option Decimal :=
  let d := ofFloat x
  [d.round tie n, d.cut n, (d.cut n).next].find? fun c => decide (c.ReadsBack x)

def shortest (tie : Tie) (x : Float) : Decimal :=
  let d := ofFloat x
  trim (((List.range (digitCount d.digits)).findSome? fun n => withDigits? tie x (n + 1)).getD d)

end GraphProfile.Decimal
