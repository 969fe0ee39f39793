import GraphProfile.Decimal.Basic

set_option autoImplicit false

/-!
# Reading numbers

Three grammars of ASCII text. A natural number is one or more digits; an integer has an optional sign before
it. A float has an optional sign, then a word for infinity or for the value that is no number, in any case, or
digits with an optional point (a digit on one side at least) and an optional exponent. Nothing is trimmed and
nothing may follow.
-/
namespace GraphProfile.Decimal

def digitsValue (cs : List Char) : Nat := cs.foldl (fun n c => 10 * n + (c.toNat - 48)) 0

def natural? (cs : List Char) : Option Nat :=
  if cs ≠ [] ∧ cs.all Char.isDigit then some (digitsValue cs) else none

def splitSign : List Char → Bool × List Char
  | '-' :: cs => (true, cs)
  | '+' :: cs => (false, cs)
  | cs => (false, cs)

def integer? (cs : List Char) : Option Int :=
  (natural? (splitSign cs).2).map fun n => if (splitSign cs).1 then -(n : Int) else n

def exponent? : List Char → Option Int
  | [] => some 0
  | c :: cs => if c = 'e' ∨ c = 'E' then integer? cs else none

def unsigned? (cs : List Char) : Option Decimal :=
  let whole := cs.takeWhile Char.isDigit
  let rest := cs.dropWhile Char.isDigit
  let (part, rest) := match rest with
    | '.' :: rest => (rest.takeWhile Char.isDigit, rest.dropWhile Char.isDigit)
    | rest => ([], rest)
  if whole = [] ∧ part = [] then none
  else (exponent? rest).map fun e => ⟨digitsValue (whole ++ part), e - part.length⟩

def nan : Float := Float.ofBits 0x7FF8000000000000

def word? (cs : List Char) : Option Float :=
  match String.ofList (cs.map Char.toLower) with
  | "inf" | "infinity" => some infinity
  | "nan" => some nan
  | _ => none

def float? (cs : List Char) : Option Float :=
  ((word? (splitSign cs).2).or ((unsigned? (splitSign cs).2).map toFloat)).map fun x =>
    if (splitSign cs).1 then -x else x

inductive Malformed where
  | empty
  | invalid
deriving DecidableEq

def Malformed.message : Malformed → String
  | .empty => "cannot parse float from empty string"
  | .invalid => "invalid float literal"

def parseFloat (s : String) : Except Malformed Float :=
  match float? s.toList with
  | some x => .ok x
  | none => .error (if s.isEmpty then .empty else .invalid)

end GraphProfile.Decimal
