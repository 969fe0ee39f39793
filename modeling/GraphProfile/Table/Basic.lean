import GraphProfile.Value
import GraphProfile.Error

set_option autoImplicit false

/-!
# Tables

A table holds columns of one length under distinct names, in the order of their source (`Table.WellFormed`).
Only `push` and `ofColumns` have to look whether a column fits; every other operation keeps what they check.
-/
namespace GraphProfile

structure Column where
  name : String
  declared : Option ValueType
  values : List (Option Value)
deriving DecidableEq

namespace Column

def length (c : Column) : Nat := c.values.length

def take (c : Column) (rows : List Nat) : Column :=
  let cells := c.values.toArray
  { c with values := rows.map fun i => cells[i]?.join }

def agrees (c d : Column) : Bool :=
  c.name == d.name && c.declared == d.declared && c.length == d.length &&
    (c.values.zip d.values).all fun
      | (some v, some w) => v.agrees w
      | (none, none) => true
      | _ => false

end Column

structure Table where
  columns : List Column
  rowCount : Nat
deriving DecidableEq

namespace Table

inductive Misfit where
  | length (column : String) (rows expected : Nat)
  | duplicate (column : String)
deriving DecidableEq

def Misfit.message : Misfit → String
  | .length column rows expected => s!"column '{column}' has {rows} rows, table has {expected}"
  | .duplicate column => s!"duplicate column '{column}'"

def Misfit.error (m : Misfit) : Error := .invalidInput m.message

def names (t : Table) : List String := t.columns.map Column.name

def WellFormed (t : Table) : Prop := t.names.Nodup ∧ ∀ c ∈ t.columns, c.length = t.rowCount

instance (t : Table) : Decidable t.WellFormed := inferInstanceAs (Decidable (_ ∧ _))

def empty (rowCount : Nat) : Table := ⟨[], rowCount⟩

def column? (t : Table) (name : String) : Option Column := t.columns.find? (·.name == name)

/-- The length is looked at before the name. -/
def push (t : Table) (c : Column) : Except Misfit Table :=
  if c.length ≠ t.rowCount then .error (.length c.name c.length t.rowCount)
  else if c.name ∈ t.names then .error (.duplicate c.name)
  else .ok { t with columns := t.columns ++ [c] }

/-- The first column sets the number of rows. -/
def ofColumns (cs : List Column) : Except Misfit Table :=
  cs.foldlM push (empty (cs.head?.elim 0 Column.length))

def take (t : Table) (rows : List Nat) : Table :=
  ⟨t.columns.map (·.take rows), rows.length⟩

/-- Tables agree when each finds the other's columns under their names, whatever the order. -/
def agrees (t u : Table) : Bool :=
  t.rowCount == u.rowCount && t.columns.length == u.columns.length &&
    t.columns.all fun c => (u.column? c.name).any c.agrees

end Table
end GraphProfile
