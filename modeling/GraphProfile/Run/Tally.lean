import GraphProfile.Profile.Basic
import GraphProfile.Run.Contribution
import GraphProfile.Table.Stack

set_option autoImplicit false

/-!
# The tally of a run

Contributions are merged one at a time, in any order. Rows of a label add up. Of the records for one attribute
that of the greatest ordinal stays. Partitions are kept as they come; they are sorted by ordinal, stacked and
measured only when the profile is asked for.
-/
namespace GraphProfile
open Std

structure Ranked (α : Type) where
  ordinal : Nat
  item : α

namespace Ranked

variable {α : Type}

/-- Of equal ordinals the first to come stays. -/
def keep (new : Ranked α) : Option (Ranked α) → Ranked α
  | none => new
  | some old => if old.ordinal < new.ordinal then new else old

/-- By ordinal. What has the same ordinal stays in the order in which it came. -/
def sorted (found : List (Ranked α)) : List (Ranked α) :=
  found.mergeSort fun a b => decide (a.ordinal ≤ b.ordinal)

end Ranked

/-- What has come in for one kind. -/
structure Shelf where
  labelCounts : ExtTreeMap String Nat
  records : ExtTreeMap String (ExtTreeMap String (Ranked Record))
  pools : ExtTreeMap String (List (Ranked Partition))

namespace Shelf

def empty : Shelf := ⟨∅, ∅, ∅⟩

def addCounts (s : Shelf) (counts : ExtTreeMap String Nat) : Shelf :=
  { s with
    labelCounts := counts.toList.foldl
      (fun all entry => all.alter entry.1 fun n => some (n.getD 0 + entry.2)) s.labelCounts }

def keepAll (ordinal : Nat) (found : Attributes) (kept : ExtTreeMap String (Ranked Record)) :
    ExtTreeMap String (Ranked Record) :=
  found.toList.foldl
    (fun kept entry => kept.alter entry.1 fun old => some (Ranked.keep ⟨ordinal, entry.2⟩ old)) kept

def addRecords (s : Shelf) (ordinal : Nat) (byLabel : ExtTreeMap String Attributes) : Shelf :=
  { s with
    records := byLabel.toList.foldl
      (fun all entry => all.alter entry.1 fun kept => some (keepAll ordinal entry.2 (kept.getD ∅))) s.records }

def addPartitions (s : Shelf) (ordinal : Nat) (parts : List Partition) : Shelf :=
  { s with
    pools := parts.foldl
      (fun all p => all.alter p.label fun pool => some (pool.getD [] ++ [⟨ordinal, p⟩])) s.pools }

def merge (s : Shelf) (c : Contribution) : Shelf :=
  match c.share with
  | .records byLabel => (s.addCounts c.labelCounts).addRecords c.ordinal byLabel
  | .partitions parts => (s.addCounts c.labelCounts).addPartitions c.ordinal parts

/-- All rows of a label as one partition. -/
def pooled (label : String) (pool : List (Ranked Partition)) : Partition :=
  let parts := (Ranked.sorted pool).map Ranked.item
  { label
    labelColumn := parts.head?.elim "" Partition.labelColumn
    table := Table.stack (parts.map Partition.table) }

def profile (maxBins : Nat) (s : Shelf) : Section :=
  let counted := s.labelCounts.toList.foldl (fun found entry => found.addRows entry.1 entry.2) .empty
  let placed := s.records.toList.foldl
    (fun found entry => found.setRecords entry.1 (entry.2.map fun _ kept => kept.item)) counted
  s.pools.toList.foldl
    (fun found entry => found.setRecords entry.1 ((pooled entry.1 entry.2).attributes maxBins)) placed

end Shelf

structure Tally where
  shelves : PerKind Shelf

namespace Tally

def empty : Tally := ⟨⟨.empty, .empty⟩⟩

def merge (t : Tally) (c : Contribution) : Tally := ⟨t.shelves.modify c.kind (·.merge c)⟩

def ofContributions (cs : List Contribution) : Tally := cs.foldl merge empty

def profile (maxBins : Nat) (t : Tally) : Profile :=
  ⟨⟨t.shelves.vertex.profile maxBins, t.shelves.edge.profile maxBins⟩⟩

end Tally
end GraphProfile
