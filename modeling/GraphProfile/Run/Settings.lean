import GraphProfile.Kind
import GraphProfile.Statistics.Histogram

set_option autoImplicit false

namespace GraphProfile

inductive MergePolicy where
  /-- The record of the last source stands. -/
  | replace
  /-- The rows of all sources are measured as one table. -/
  | combine
deriving DecidableEq

namespace MergePolicy

def name : MergePolicy → String
  | .replace => "replace"
  | .combine => "combine"

def ofName? : String → Option MergePolicy
  | "replace" => some .replace
  | "combine" => some .combine
  | _ => none

/-- Names are read in either case. A text that is no name is given back in lower case. -/
def parse (s : String) : Except String MergePolicy :=
  match ofName? s.toLower with
  | some policy => .ok policy
  | none => .error s.toLower

def refusal (other : String) : String :=
  s!"unknown merge policy '{other}' (expected 'replace' or 'combine')"

end MergePolicy

structure Settings where
  maxBins : Nat
  policy : MergePolicy
  workers : Option Nat
  labelColumns : PerKind String

namespace Settings

def standard : Settings where
  maxBins := Histogram.defaultMaxBins
  policy := .replace
  workers := none
  labelColumns := ⟨":LABEL", ":TYPE"⟩

/-- One bin alone describes no spread. -/
def withMaxBins (s : Settings) (n : Nat) : Settings := { s with maxBins := max n 2 }

def withPolicy (s : Settings) (policy : MergePolicy) : Settings := { s with policy }

/-- With no number of workers whoever runs may choose one. -/
def withWorkers (s : Settings) (n : Nat) : Settings := { s with workers := if n = 0 then none else some n }

def withLabelColumns (s : Settings) (vertex edge : String) : Settings :=
  { s with labelColumns := ⟨vertex, edge⟩ }

end Settings
end GraphProfile
