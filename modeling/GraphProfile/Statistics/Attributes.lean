import GraphProfile.Header
import GraphProfile.Statistics.Record
import GraphProfile.Table.Partition

set_option autoImplicit false

namespace GraphProfile
open Std

abbrev Attributes := ExtTreeMap String Record

namespace Partition

def isData (p : Partition) (c : Column) : Bool :=
  !(Header.parse c.name).isStructural && c.name != p.labelColumn

def dataColumns (p : Partition) : List Column := p.table.columns.filter p.isData

/-- Where an earlier column has taken the name a record is filed under the whole header. -/
def addAttribute (maxBins : Nat) (found : Attributes) (c : Column) : Attributes :=
  let header := Header.parse c.name
  let key := if header.name ∈ found then header.raw else header.name
  found.insert key (Record.ofColumn maxBins (c.declared.or header.declared) c)

def attributes (maxBins : Nat) (p : Partition) : Attributes :=
  p.dataColumns.foldl (addAttribute maxBins) ∅

end Partition
end GraphProfile
