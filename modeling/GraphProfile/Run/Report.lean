import GraphProfile.Run.Tally

set_option autoImplicit false

/-!
# Runs and their reports

Every source of a run has one of three outcomes: it contributes, it has no label column and is passed over, or it
could not be loaded. No source keeps another from its outcome, and the profile is that of the contributions.
-/
namespace GraphProfile

structure Source where
  name : String
  kind : Kind
  table : Except Error Table

structure Failure where
  source : String
  kind : Kind
  message : String
deriving DecidableEq

def Failure.text (f : Failure) : String := s!"{f.source} ({f.kind.name}): {f.message}"

inductive Outcome where
  | contributed (c : Contribution)
  | skipped
  | failed (f : Failure)

namespace Outcome

def contribution? : Outcome → Option Contribution
  | .contributed c => some c
  | _ => none

def failure? : Outcome → Option Failure
  | .failed f => some f
  | _ => none

def isSkipped : Outcome → Bool
  | .skipped => true
  | _ => false

def ofSource (settings : Settings) (ordinal : Nat) (s : Source) : Outcome :=
  match s.table with
  | .error e => .failed ⟨s.name, s.kind, e.message⟩
  | .ok t =>
    match Contribution.ofTable? settings s.name s.kind ordinal t with
    | some c => .contributed c
    | none => .skipped

end Outcome

structure Report where
  profile : Profile
  /-- In the order of the sources. -/
  failures : List Failure
  processed : Nat
  skipped : Nat
  /-- The name of every source that was dealt with, whatever came of it. -/
  handled : List String

namespace Report

def isComplete (r : Report) : Bool := r.failures.isEmpty

def ofOutcomes (profile : Profile) (handled : List String) (found : List Outcome) : Report where
  profile := profile
  failures := found.filterMap Outcome.failure?
  processed := (found.filterMap Outcome.contribution?).length
  skipped := found.countP Outcome.isSkipped
  handled := handled

def outcomes (settings : Settings) (sources : List Source) : List Outcome :=
  sources.mapIdx (Outcome.ofSource settings)

def contributions (settings : Settings) (sources : List Source) : List Contribution :=
  (outcomes settings sources).filterMap Outcome.contribution?

def ofSources (settings : Settings) (sources : List Source) : Report :=
  ofOutcomes ((Tally.ofContributions (contributions settings sources)).profile settings.maxBins)
    (sources.map Source.name) (outcomes settings sources)

end Report
end GraphProfile
