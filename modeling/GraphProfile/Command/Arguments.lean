set_option autoImplicit false

/-!
# Arguments

A command line is read from the left. An option is written `--name` or `-n`; several options of one letter may
share a dash. A value stands behind an equals sign, or directly behind the letter, or is the next argument. An
argument that starts with a dash is no value, but for options that take any. After `--` nothing is an option.

A lone dash is an operand, as is everything that is neither an option nor its value.
-/
namespace GraphProfile.Command

inductive OptionKind where
  | flag
  | value
  /-- The next argument is the value whatever it looks like. -/
  | anyValue
deriving DecidableEq

structure OptionSpec where
  name : String
  letter : Option Char
  kind : OptionKind

inductive Given where
  | option (name : String) (value : Option String)
  | operand (text : String)
deriving DecidableEq

namespace Given

def operand? : Given → Option String
  | .operand text => some text
  | .option _ _ => none

def optionName? : Given → Option String
  | .option name _ => some name
  | .operand _ => none

end Given

inductive Sorted where
  | operand
  | endOfOptions
  | complete (given : List Given)
  /-- The last option's value is the next argument. -/
  | awaiting (given : List Given) (spec : OptionSpec)
  | unknown

def looksLikeOption : List Char → Bool
  | '-' :: _ :: _ => true
  | _ => false

def OptionSpec.accepts (spec : OptionSpec) (value : String) : Bool :=
  spec.kind == .anyValue || !looksLikeOption value.toList

/-- Options of one letter, the dash being read already. -/
def sortLetters (specs : List OptionSpec) : List Char → List Given → Sorted
  | [], given => .complete given.reverse
  | c :: cs, given =>
    match specs.find? fun spec => spec.letter == some c with
    | none => .unknown
    | some spec =>
      if spec.kind = .flag then sortLetters specs cs (.option spec.name none :: given)
      else
        match cs with
        | [] => .awaiting given.reverse spec
        | '=' :: value => .complete ((Given.option spec.name (String.ofList value) :: given).reverse)
        | value => .complete ((Given.option spec.name (String.ofList value) :: given).reverse)

/-- An option by its name, the two dashes being read already. -/
def sortName (specs : List OptionSpec) (cs : List Char) : Sorted :=
  match specs.find? fun spec => spec.name.toList == cs.takeWhile (· ≠ '=') with
  | none => .unknown
  | some spec =>
    match decide (spec.kind = .flag), cs.dropWhile (· ≠ '=') with
    | true, [] => .complete [.option spec.name none]
    | true, _ :: _ => .unknown
    | false, [] => .awaiting [] spec
    | false, _ :: value => .complete [.option spec.name (String.ofList value)]

def sort (specs : List OptionSpec) (arg : String) : Sorted :=
  match arg.toList with
  | ['-', '-'] => .endOfOptions
  | '-' :: '-' :: cs => sortName specs cs
  | '-' :: c :: cs => sortLetters specs (c :: cs) []
  | _ => .operand

def scan (specs : List OptionSpec) : List String → Option (List Given)
  | [] => some []
  | arg :: rest =>
    match sort specs arg with
    | .operand => (scan specs rest).map (.operand arg :: ·)
    | .endOfOptions => some (rest.map .operand)
    | .complete given => (scan specs rest).map (given ++ ·)
    | .awaiting given spec =>
      match rest with
      | [] => none
      | value :: rest =>
        if spec.accepts value then (scan specs rest).map (given ++ .option spec.name value :: ·) else none
    | .unknown => none

/-- The options in front of the first operand, that operand, and the arguments behind it. -/
def scanToOperand (specs : List OptionSpec) : List String → Option (List Given × String × List String)
  | [] => none
  | arg :: rest =>
    match sort specs arg with
    | .operand => some ([], arg, rest)
    | .endOfOptions => none
    | .complete given => (scanToOperand specs rest).map fun found => (given ++ found.1, found.2)
    | .awaiting given spec =>
      match rest with
      | [] => none
      | value :: rest =>
        if spec.accepts value then
          (scanToOperand specs rest).map fun found => (given ++ .option spec.name value :: found.1, found.2)
        else none
    | .unknown => none

def distinct (given : List Given) : Bool := decide (given.filterMap Given.optionName?).Nodup

def has (given : List Given) (name : String) : Bool := given.any fun g => g.optionName? == some name

def value? (given : List Given) (name : String) : Option String :=
  given.findSome? fun
    | .option n value => if n = name then value else none
    | .operand _ => none

def operands (given : List Given) : List String := given.filterMap Given.operand?

end GraphProfile.Command
