import GraphProfile.Run.Settings
import GraphProfile.Statistics.Attributes

set_option autoImplicit false

namespace GraphProfile
open Std

inductive Share where
  | records (byLabel : ExtTreeMap String Attributes)
  | partitions (parts : List Partition)

/-- What a source gives to a run. The ordinal tells where in the list of sources it stands. -/
structure Contribution where
  source : String
  kind : Kind
  ordinal : Nat
  labelCounts : ExtTreeMap String Nat
  share : Share

namespace Contribution

def countLabels (parts : List Partition) : ExtTreeMap String Nat :=
  ExtTreeMap.ofList (parts.map fun p => (p.label, p.rowCount))

def measure (maxBins : Nat) (parts : List Partition) : ExtTreeMap String Attributes :=
  ExtTreeMap.ofList (parts.map fun p => (p.label, p.attributes maxBins))

def shareOf (settings : Settings) (parts : List Partition) : Share :=
  match settings.policy with
  | .replace => .records (measure settings.maxBins parts)
  | .combine => .partitions parts

/-- A table without the label column gives nothing. -/
def ofTable? (settings : Settings) (source : String) (kind : Kind) (ordinal : Nat) (t : Table) :
    Option Contribution :=
  (t.partition? (settings.labelColumns.get kind)).map fun parts =>
    { source, kind, ordinal, labelCounts := countLabels parts, share := shareOf settings parts }

end Contribution
end GraphProfile
