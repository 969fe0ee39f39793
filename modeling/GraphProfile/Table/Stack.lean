import GraphProfile.Table.Basic

set_option autoImplicit false

namespace GraphProfile.Table

def allNames (tables : List Table) : List String := (tables.flatMap names).eraseDups

def firstDeclared (tables : List Table) (name : String) : Option ValueType :=
  tables.findSome? fun t => (t.column? name).bind Column.declared

/-- Where a table lacks the column its rows have no value. -/
def cells (name : String) (t : Table) : List (Option Value) :=
  match t.column? name with
  | some c => c.values
  | none => List.replicate t.rowCount none

def stack (tables : List Table) : Table where
  columns := (allNames tables).map fun name =>
    { name, declared := firstDeclared tables name, values := tables.flatMap (cells name) }
  rowCount := tables.foldr (fun t n => t.rowCount + n) 0

end GraphProfile.Table
