import GraphProfile.Statistics.Comparison
import GraphProfile.Statistics.Record

set_option autoImplicit false

/-!
# Estimating a predicate

The share of an attribute's values that satisfy `attribute op value`, read off its record. Rows without a value
are left out, other than in the record's own selectivities. Inside a bin values are taken to lie evenly, and a
single value has no weight, so `<` and `<=` are estimated alike, and `>` and `>=`.

There is no answer for a range of texts, nor for a text against numbers.
-/
namespace GraphProfile.Record

/-- A literal is read the way the attribute's values are: texts verbatim, numbers inferred. -/
def readLiteral (r : Record) (raw : String) : Value :=
  if r.type = .string then .text raw else .infer raw

def clamp (x : Float) : Float := if x < 0 then 0 else if 1 < x then 1 else x

/-- The share of a bin that lies below the target. -/
def below (target : Float) (b : Bin) : Float :=
  if target ≤ b.lo then 0
  else if b.hi ≤ target then 1
  else (target - b.lo) / (b.hi - b.lo)

def fraction (op : Comparison) (target : Float) (b : Bin) : Float :=
  match op with
  | .lt | .le => below target b
  | .gt | .ge => 1 - below target b
  | .eq | .ne => 0

def matching (op : Comparison) (target : Float) (bins : List Bin) : Float :=
  bins.foldl (fun sum b => sum + Float.ofNat b.count * clamp (fraction op target b)) 0

def interpolate (r : Record) (op : Comparison) (target : Float) : Float :=
  clamp (matching op target r.histogram.bins / Float.ofNat r.count)

def frequency (r : Record) (s : String) : Float :=
  match r.histogram.frequencies[s]? with
  | some n => Float.ofNat n / Float.ofNat r.count
  | none => 0

def estimateText (r : Record) (op : Comparison) (v : Value) : Option Float :=
  match op with
  | .eq => some (r.frequency v.display)
  | .ne => some (1 - r.frequency v.display)
  | _ => none

/-- Without bins all values of the column are one. -/
def estimateNumber (r : Record) (op : Comparison) (target : Float) : Option Float :=
  match op with
  | .eq => some r.selectivity.eq
  | .ne => some r.selectivity.ne
  | op =>
    if r.histogram.isEmpty then r.least.map fun only => if op.holds only.toFloat target then 1 else 0
    else some (r.interpolate op target)

def estimate (r : Record) (op : Comparison) (v : Value) : Option Float :=
  if r.count = 0 then some 0
  else if r.type = .string then r.estimateText op v
  else v.number?.bind (r.estimateNumber op)

end GraphProfile.Record
