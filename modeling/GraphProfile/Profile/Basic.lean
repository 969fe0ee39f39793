import GraphProfile.Kind
import GraphProfile.Statistics.Attributes

set_option autoImplicit false

namespace GraphProfile
open Std

structure Section where
  total : Nat
  labelCounts : ExtTreeMap String Nat
  attributes : ExtTreeMap String Attributes
deriving DecidableEq

namespace Section

def empty : Section := ⟨0, ∅, ∅⟩

def addRows (s : Section) (label : String) (rows : Nat) : Section :=
  { s with
    total := s.total + rows
    labelCounts := s.labelCounts.alter label fun n => some (n.getD 0 + rows) }

def setRecord (s : Section) (label name : String) (r : Record) : Section :=
  { s with
    attributes := s.attributes.alter label fun found => some ((found.getD ∅).insert name r) }

/-- The record that had the name before comes back, if there was one. -/
def exchangeRecord (s : Section) (label name : String) (r : Record) : Option Record × Section :=
  let found := s.attributes[label]?.getD ∅
  (found[name]?, { s with attributes := s.attributes.insert label (found.insert name r) })

def setRecords (s : Section) (label : String) (records : Attributes) : Section :=
  records.toList.foldl (fun s entry => s.setRecord label entry.1 entry.2) s

def record? (s : Section) (label name : String) : Option Record :=
  s.attributes[label]?.bind fun found => found[name]?

end Section

structure Profile where
  sections : PerKind Section
deriving DecidableEq

namespace Profile

def empty : Profile := ⟨⟨.empty, .empty⟩⟩

def get (p : Profile) (k : Kind) : Section := p.sections.get k

def addRows (p : Profile) (k : Kind) (label : String) (rows : Nat) : Profile :=
  ⟨p.sections.modify k (·.addRows label rows)⟩

def setRecord (p : Profile) (k : Kind) (label name : String) (r : Record) : Profile :=
  ⟨p.sections.modify k (·.setRecord label name r)⟩

def exchangeRecord (p : Profile) (k : Kind) (label name : String) (r : Record) : Option Record × Profile :=
  let exchanged := (p.get k).exchangeRecord label name r
  (exchanged.1, ⟨p.sections.modify k fun _ => exchanged.2⟩)

def setRecords (p : Profile) (k : Kind) (label : String) (records : Attributes) : Profile :=
  ⟨p.sections.modify k (·.setRecords label records)⟩

def record? (p : Profile) (k : Kind) (label name : String) : Option Record :=
  (p.get k).record? label name

end Profile
end GraphProfile
