import GraphProfile.Command.Arguments
import GraphProfile.Decimal.Literal
import GraphProfile.Run.Settings
import GraphProfile.Statistics.Comparison

set_option autoImplicit false

/-!
# Requests

What a command line asks for: to collect the profile of a dataset, to show a profile, or to estimate a predicate.
The format and the wish for silence may be given before the command's name or behind it; what is given behind it
counts. A command line that asks for none of this is refused as a whole.
-/
namespace GraphProfile.Command

inductive Format where
  | table
  | json
deriving DecidableEq

structure CollectRequest where
  vertices : String
  edges : String
  output : Option String
  maxBins : Nat
  policy : MergePolicy
  workers : Nat
  delimiter : Char
deriving DecidableEq

structure EstimateRequest where
  path : String
  kind : Kind
  label : String
  attr : String
  op : Comparison
  value : String
deriving DecidableEq

inductive Request where
  | collect (r : CollectRequest)
  | display (path : String)
  | estimate (r : EstimateRequest)
deriving DecidableEq

structure Invocation where
  format : Format
  quiet : Bool
  request : Request
deriving DecidableEq

/-- Nothing is written to a log, so `verbose` changes nothing. -/
def sharedOptions : List OptionSpec :=
  [⟨"format", none, .value⟩, ⟨"quiet", some 'q', .flag⟩, ⟨"verbose", some 'v', .flag⟩]

def collectOptions : List OptionSpec :=
  [⟨"nodes", none, .value⟩, ⟨"relationships", none, .value⟩, ⟨"output", some 'o', .value⟩,
   ⟨"max-bins", none, .value⟩, ⟨"merge-policy", none, .value⟩, ⟨"threads", none, .value⟩,
   ⟨"delimiter", none, .value⟩]

def estimateOptions : List OptionSpec :=
  [⟨"label", none, .value⟩, ⟨"attr", none, .value⟩, ⟨"op", none, .anyValue⟩, ⟨"value", none, .anyValue⟩,
   ⟨"edge", none, .flag⟩]

def readFormat? : String → Option Format
  | "table" => some .table
  | "json" => some .json
  | _ => none

def readPath? (s : String) : Option String := if s.isEmpty then none else some s

/-- A number of 64 bits, with a plus sign or without. -/
def readCount? (s : String) : Option Nat :=
  let digits := match s.toList with
    | '+' :: cs => cs
    | cs => cs
  (Decimal.natural? digits).filter fun n => decide (n < UInt64.size)

def readChar? (s : String) : Option Char :=
  match s.toList with
  | [c] => some c
  | _ => none

def readPolicy? (s : String) : Option MergePolicy := (MergePolicy.parse s).toOption

def readComparison? (s : String) : Option Comparison := (Comparison.parse s).toOption

def required? {α : Type} (read : String → Option α) (given : List Given) (name : String) : Option α :=
  (value? given name).bind read

/-- An option that may be missing, but whose value must be read if it is there. -/
def optional? {α : Type} (read : String → Option α) (given : List Given) (name : String) : Option (Option α) :=
  match value? given name with
  | none => some none
  | some s => (read s).map some

def soleOperand? (given : List Given) : Option String :=
  match operands given with
  | [path] => readPath? path
  | _ => none

def collect? (given : List Given) : Option CollectRequest := do
  guard (operands given = [])
  return {
    vertices := ← required? readPath? given "nodes"
    edges := ← required? readPath? given "relationships"
    output := ← optional? readPath? given "output"
    maxBins := (← optional? readCount? given "max-bins").getD Settings.standard.maxBins
    policy := (← optional? readPolicy? given "merge-policy").getD Settings.standard.policy
    workers := (← optional? readCount? given "threads").getD 0
    delimiter := (← optional? readChar? given "delimiter").getD '|' }

def estimate? (given : List Given) : Option EstimateRequest := do
  return {
    path := ← soleOperand? given
    kind := if has given "edge" then .edge else .vertex
    label := ← required? some given "label"
    attr := ← required? some given "attr"
    op := ← required? readComparison? given "op"
    value := ← required? some given "value" }

structure CommandSpec where
  name : String
  options : List OptionSpec
  read : List Given → Option Request

def commands : List CommandSpec :=
  [⟨"collect", collectOptions, fun given => (collect? given).map .collect⟩,
   ⟨"show", [], fun given => (soleOperand? given).map .display⟩,
   ⟨"estimate", estimateOptions, fun given => (estimate? given).map .estimate⟩]

def parse (args : List String) : Option Invocation := do
  let (before, name, rest) ← scanToOperand sharedOptions args
  let command ← commands.find? fun c => c.name == name
  let behind ← scan (command.options ++ sharedOptions) rest
  guard (distinct before && distinct behind)
  let formatBefore ← optional? readFormat? before "format"
  let formatBehind ← optional? readFormat? behind "format"
  return {
    format := (formatBehind.or formatBefore).getD .table
    quiet := has before "quiet" || has behind "quiet"
    request := ← command.read behind }

end GraphProfile.Command
