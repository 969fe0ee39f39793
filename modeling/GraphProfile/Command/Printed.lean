import GraphProfile.Error
import GraphProfile.Text.Grid

set_option autoImplicit false

namespace GraphProfile.Command

structure Printed where
  result : String
  notes : String
  failure : Option (List String)
deriving DecidableEq

namespace Printed

def failed (causes : List String) : Printed := ⟨"", "", some causes⟩

def because (context : String) (e : Error) : Printed := failed (context :: e.chain)

def exitCode (p : Printed) : Nat := if p.failure.isSome then 1 else 0

def allNotes (p : Printed) : String :=
  p.notes ++ p.failure.elim "" fun causes => "Error: " ++ String.intercalate ": " causes ++ "\n"

end Printed

def unlessQuiet (quiet : Bool) (s : String) : String := if quiet then "" else s

def propertyGrid (items : List (String × String)) : Text.Grid :=
  ⟨["Property", "Value"], items.map fun item => [item.1, item.2]⟩

end GraphProfile.Command
