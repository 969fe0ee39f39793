set_option autoImplicit false

namespace GraphProfile

inductive Error where
  | io (message : String)
  | parse (source : String) (line : Option Nat) (message : String)
  | serialization (message : String)
  | invalidInput (message : String)
  | internal (message : String)
deriving DecidableEq

namespace Error

def message : Error → String
  | .io m => s!"I/O error: {m}"
  | .parse source line m =>
    s!"failed to parse {source}" ++ (line.elim "" fun l => s!" at line {l}") ++ s!": {m}"
  | .serialization m => s!"serialization error: {m}"
  | .invalidInput m => s!"invalid input: {m}"
  | .internal m => s!"internal error: {m}"

/-- The messages from the outermost to the first cause: a failure of the system is told once more by itself. -/
def chain (e : Error) : List String :=
  match e with
  | .io m => [e.message, m]
  | _ => [e.message]

end Error
end GraphProfile
