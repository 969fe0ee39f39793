import GraphProfile.Command.Show
import GraphProfile.Statistics.Estimate

set_option autoImplicit false

namespace GraphProfile.Command

namespace EstimateRequest

def predicate (r : EstimateRequest) : String := s!"{r.attr} {r.op.symbol} {r.value}"

def properties (r : EstimateRequest) (share rows : Float) : List (String × String) :=
  [("Kind", r.kind.name), ("Label", r.label), ("Predicate", r.predicate),
   ("Selectivity", Decimal.fixed 6 share), ("Estimated rows", Decimal.fixed 1 rows)]

def document (r : EstimateRequest) (share rows : Float) : Json :=
  .ofFields
    [("kind", .text r.kind.name), ("label", .text r.label), ("attribute", .text r.attr),
     ("predicate", .text r.predicate), ("selectivity", .float share), ("estimated_rows", .float rows)]

def answer (r : EstimateRequest) (format : Format) (share rows : Float) : String :=
  match format with
  | .json => (r.document share rows).pretty ++ "\n"
  | .table => (propertyGrid (r.properties share rows)).text

def ofProfile (r : EstimateRequest) (format : Format) (quiet : Bool) (p : Profile) : Printed :=
  match p.record? r.kind r.label r.attr with
  | none => .failed [s!"no statistics for {r.kind.name} attribute {r.label}.{r.attr}"]
  | some record =>
    match record.estimate r.op (record.readLiteral r.value) with
    | none => .failed [s!"cannot estimate '{r.predicate}' on a {record.type.name} attribute"]
    | some share =>
      ⟨unlessQuiet quiet (r.answer format share (share * Float.ofNat record.count)), "", none⟩

end EstimateRequest

variable {m : Type → Type} [Monad m] [FileAccess m]

def runEstimate (format : Format) (quiet : Bool) (r : EstimateRequest) : m Printed := do
  match ← Profile.load r.path with
  | .error e => return unreadableProfile r.path e
  | .ok p => return r.ofProfile format quiet p

end GraphProfile.Command
