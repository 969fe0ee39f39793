import Std.Data.ExtTreeMap
import GraphProfile.Table.Basic

set_option autoImplicit false

/-!
# Label partitions

The values of a label column split a table: rows whose labels read the same belong together, whatever the types
of the label values. A row without a label belongs nowhere. Partitions come in the order of their labels.
-/
namespace GraphProfile
open Std

structure Partition where
  label : String
  labelColumn : String
  table : Table
deriving DecidableEq

def Partition.rowCount (p : Partition) : Nat := p.table.rowCount

namespace Table

def addRow (cell : Option Value × Nat) (groups : ExtTreeMap String (List Nat)) : ExtTreeMap String (List Nat) :=
  match cell.1 with
  | none => groups
  | some v => groups.alter v.display fun rows => some (cell.2 :: rows.getD [])

/-- For each label the positions of its rows, ascending. -/
def rowsByLabel (labels : List (Option Value)) : ExtTreeMap String (List Nat) :=
  labels.zipIdx.foldr addRow ∅

def partition (t : Table) (labelColumn label : String) (rows : List Nat) : Partition where
  label := label
  labelColumn := labelColumn
  table := t.take rows

def partitions (t : Table) (labelColumn : String) (groups : ExtTreeMap String (List Nat)) : List Partition :=
  groups.toList.map fun group => t.partition labelColumn group.1 group.2

def partition? (t : Table) (labelColumn : String) : Option (List Partition) :=
  (t.column? labelColumn).map fun labels => t.partitions labelColumn (rowsByLabel labels.values)

end Table
end GraphProfile
