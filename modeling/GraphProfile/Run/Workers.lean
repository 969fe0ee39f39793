import GraphProfile.Run.Report

set_option autoImplicit false

/-!
# Runs on workers

Every source is the task of some worker. A task takes two steps: it settles what comes of its source, merging at
once what the source contributes, and then it tells the source's name. Only the tally is shared, and it is held by one
task at a time, so a run is a list of turns: each lets the task at one position take its next step. The report is
made when every task is through.
-/
namespace GraphProfile

inductive Stage where
  | waiting
  | settled (o : Outcome)
  | told (o : Outcome)

namespace Stage

def outcome? : Stage → Option Outcome
  | .waiting => none
  | .settled o => some o
  | .told o => some o

def isTold : Stage → Bool
  | .told _ => true
  | _ => false

def steps : Stage → Nat
  | .waiting => 0
  | .settled _ => 1
  | .told _ => 2

end Stage

structure Task where
  source : Source
  stage : Stage

structure Progress where
  tally : Tally
  tasks : List Task
  handled : List String

namespace Progress

def start (sources : List Source) : Progress := ⟨.empty, sources.map fun s => ⟨s, .waiting⟩, []⟩

/-- The outcome is noted and what it contributes is merged, in one step. -/
def settle (p : Progress) (i : Nat) (t : Task) (o : Outcome) : Progress :=
  { p with
    tally := o.contribution?.elim p.tally p.tally.merge
    tasks := p.tasks.set i { t with stage := .settled o } }

def tell (p : Progress) (i : Nat) (t : Task) (o : Outcome) : Progress :=
  { p with
    tasks := p.tasks.set i { t with stage := .told o }
    handled := p.handled ++ [t.source.name] }

/-- What a task does in its turn; its position is the ordinal of its source. -/
def move (settings : Settings) (p : Progress) (i : Nat) (t : Task) : Progress :=
  match t.stage with
  | .waiting => p.settle i t (.ofSource settings i t.source)
  | .settled o => p.tell i t o
  | .told _ => p

/-- A turn for a position without a task changes nothing. -/
def advance (settings : Settings) (p : Progress) (i : Nat) : Progress :=
  p.tasks[i]?.elim p (p.move settings i)

def after (settings : Settings) (sources : List Source) (turns : List Nat) : Progress :=
  turns.foldl (advance settings) (start sources)

def isFinished (p : Progress) : Bool := p.tasks.all fun t => t.stage.isTold

def report (settings : Settings) (p : Progress) : Report :=
  .ofOutcomes (p.tally.profile settings.maxBins) p.handled (p.tasks.filterMap fun t => t.stage.outcome?)

end Progress

/-- Turns in which each of `n` tasks can be finished. -/
structure Schedule (n : Nat) where
  turns : List Nat
  enough : ∀ i, i < n → 2 ≤ turns.count i

namespace Schedule

theorem two_le_count_pairs {n i : Nat} (hi : i < n) :
    2 ≤ ((List.range n).flatMap fun j => [j, j]).count i := by
  induction n with
  | zero => omega
  | succ n ih =>
    rw [List.range_succ, List.flatMap_append, List.count_append]
    by_cases h : i = n
    · subst h
      simp
    · have := ih (by omega)
      omega

def inOrder (n : Nat) : Schedule n where
  turns := (List.range n).flatMap fun i => [i, i]
  enough _ hi := two_le_count_pairs hi

end Schedule

def Report.onWorkers (settings : Settings) (sources : List Source) (schedule : Schedule sources.length) : Report :=
  (Progress.after settings sources schedule.turns).report settings

end GraphProfile
