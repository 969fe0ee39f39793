import GraphProfile.Command.Printed
import GraphProfile.Command.Request
import GraphProfile.Files.Document

set_option autoImplicit false

namespace GraphProfile.Command

def kinds : List Kind := [.vertex, .edge]

def countRows (p : Profile) (k : Kind) : List (List String) :=
  ((p.get k).labelCounts.toList.map fun entry => [k.name, entry.1, toString entry.2]) ++
    [[k.name, "(total)", toString (p.get k).total]]

def countGrid (p : Profile) : Text.Grid := ⟨["Kind", "Label", "Count"], kinds.flatMap (countRows p)⟩

def boundText (b : Option Bound) : String := b.elim "-" Bound.text

def attributeRow (k : Kind) (label name : String) (r : Record) : List String :=
  [k.name, label, name, r.type.name, toString r.count, toString r.nullCount, toString r.distinctCount,
   boundText r.least, boundText r.greatest, toString r.histogram.binCount, Decimal.fixed 4 r.selectivity.eq]

def attributeRows (p : Profile) (k : Kind) : List (List String) :=
  (p.get k).attributes.toList.flatMap fun entry =>
    entry.2.toList.map fun found => attributeRow k entry.1 found.1 found.2

def attributeGrid (p : Profile) : Text.Grid where
  header :=
    ["Kind", "Label", "Attribute", "Type", "Count", "Nulls", "Distinct", "Min", "Max", "Bins", "Eq"]
  rows := kinds.flatMap (attributeRows p)

def shown (format : Format) (p : Profile) : String :=
  match format with
  | .json => p.document
  | .table => (countGrid p).text ++ (attributeGrid p).text

def unreadableProfile (path : String) (e : Error) : Printed :=
  .because s!"failed to read statistics from '{path}'" e

variable {m : Type → Type} [Monad m] [FileAccess m]

def runShow (format : Format) (quiet : Bool) (path : String) : m Printed := do
  match ← Profile.load path with
  | .error e => return unreadableProfile path e
  | .ok p => return ⟨unlessQuiet quiet (shown format p), "", none⟩

end GraphProfile.Command
