import GraphProfile.Command.Collect
import GraphProfile.Command.Estimate

set_option autoImplicit false

namespace GraphProfile.Command

structure Outcome where
  result : String
  notes : String
  exitCode : Nat
deriving DecidableEq

def Printed.outcome (p : Printed) : Outcome := ⟨p.result, p.allNotes, p.exitCode⟩

def usage : String :=
  "usage: collect --nodes DIR --relationships DIR [-o FILE] [--max-bins N] [--merge-policy replace|combine]\n" ++
  "               [--threads N] [--delimiter CHAR]\n" ++
  "       show FILE\n" ++
  "       estimate FILE --label LABEL --attr NAME --op OP --value VALUE [--edge]\n" ++
  "with everything: [--format table|json] [-q|--quiet] [-v|--verbose]\n"

variable {m : Type → Type} [Monad m] [FileAccess m]

def runRequest (i : Invocation) : m Printed :=
  match i.request with
  | .collect r => runCollect i.format i.quiet r
  | .display path => runShow i.format i.quiet path
  | .estimate r => runEstimate i.format i.quiet r

def run (args : List String) : m Outcome := do
  match parse args with
  | none => return ⟨"", usage, 2⟩
  | some i => return (← runRequest i).outcome

end GraphProfile.Command
