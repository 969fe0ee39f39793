import GraphProfile.Command.Printed
import GraphProfile.Command.Request
import GraphProfile.Files.Dataset
import GraphProfile.Files.Document

set_option autoImplicit false

/-!
# Collecting a profile

The profile goes to a file, and then the summary is the result; or it is the result itself, and the summary a
note. Files that could not be read are named at the end, and make the command fail however much was collected
from the others.
-/
namespace GraphProfile.Command

def summaryItems (r : Report) (output : Option String) : List (String × String) :=
  let vertices := r.profile.get .vertex
  let edges := r.profile.get .edge
  [("Files processed", toString r.processed), ("Files skipped", toString r.skipped),
   ("Files failed", toString r.failures.length), ("Vertices", toString vertices.total),
   ("Edges", toString edges.total), ("Vertex labels", toString vertices.labelCounts.size),
   ("Edge types", toString edges.labelCounts.size)] ++
    output.toList.map fun path => ("Output", path)

def summaryDocument (r : Report) (output : Option String) : Json :=
  let vertices := r.profile.get .vertex
  let edges := r.profile.get .edge
  .ofFields
    [("files_processed", .nat r.processed), ("files_skipped", .nat r.skipped),
     ("files_failed", .nat r.failures.length), ("vertices", .nat vertices.total), ("edges", .nat edges.total),
     ("vertex_labels", .nat vertices.labelCounts.size), ("edge_types", .nat edges.labelCounts.size),
     ("output", .ofOption Json.text output)]

def summaryGrid (r : Report) (output : Option String) : String := (propertyGrid (summaryItems r output)).text

def summary (format : Format) (r : Report) (output : Option String) : String :=
  match format with
  | .json => (summaryDocument r output).pretty ++ "\n"
  | .table => summaryGrid r output

def failureLines (r : Report) : String := String.join (r.failures.map fun f => s!"✗ {f.text}\n")

def incomplete (r : Report) (files : Nat) : Option (List String) :=
  if r.isComplete then none else some [s!"{r.failures.length} of {files} files failed"]

namespace CollectRequest

def settings (r : CollectRequest) : Settings :=
  ((Settings.standard.withMaxBins r.maxBins).withPolicy r.policy).withWorkers r.workers

def options (r : CollectRequest) : Delimited.Options :=
  { Delimited.Options.standard with delimiter := r.delimiter.toNat.toUInt8 }

end CollectRequest

variable {m : Type → Type} [Monad m] [FileAccess m]

def deliver (format : Format) (quiet : Bool) (r : CollectRequest) (files : Nat) (report : Report) :
    m Printed := do
  let announced := unlessQuiet quiet s!"Collecting statistics from {files} files...\n"
  match r.output with
  | none =>
    return {
      result := report.profile.document
      notes := announced ++ unlessQuiet quiet (summaryGrid report none) ++ failureLines report
      failure := incomplete report files }
  | some path =>
    match ← report.profile.save path with
    | .error e => return { Printed.because s!"failed to write '{path}'" e with notes := announced }
    | .ok _ =>
      return {
        result := unlessQuiet quiet (summary format report (some path))
        notes := announced ++ unlessQuiet quiet s!"✓ Statistics written to {path}\n" ++ failureLines report
        failure := incomplete report files }

def runCollect (format : Format) (quiet : Bool) (r : CollectRequest) : m Printed := do
  if 128 ≤ r.delimiter.toNat then
    return .failed [s!"delimiter must be a single ASCII character, got '{r.delimiter}'"]
  match ← DataFile.discover r.vertices r.edges with
  | .error e =>
    return .because s!"failed to list dataset files under '{r.vertices}' and '{r.edges}'" e
  | .ok files =>
    let sources ← files.mapM (DataFile.load r.options)
    deliver format quiet r files.length (.ofSources r.settings sources)

end GraphProfile.Command
