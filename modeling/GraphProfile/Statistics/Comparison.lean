import GraphProfile.Text.Space

set_option autoImplicit false

namespace GraphProfile

inductive Comparison where
  | eq
  | ne
  | lt
  | le
  | gt
  | ge
deriving DecidableEq

namespace Comparison

def symbol : Comparison → String
  | .eq => "="
  | .ne => "!="
  | .lt => "<"
  | .le => "<="
  | .gt => ">"
  | .ge => ">="

/-- Blanks around the operator do not matter. A text that is no operator is given back without them. -/
def parse (s : String) : Except String Comparison :=
  match Text.trim s with
  | "=" | "==" => .ok .eq
  | "!=" | "<>" => .ok .ne
  | "<" => .ok .lt
  | "<=" => .ok .le
  | ">" => .ok .gt
  | ">=" => .ok .ge
  | other => .error other

def refusal (other : String) : String := s!"unknown operator '{other}'"

def holds (op : Comparison) (x y : Float) : Bool :=
  match op with
  | .eq => x == y
  | .ne => !(x == y)
  | .lt => decide (x < y)
  | .le => decide (x ≤ y)
  | .gt => decide (y < x)
  | .ge => decide (y ≤ x)

end Comparison
end GraphProfile
