import GraphProfile.Proofs.Maps
import GraphProfile.Run.Contribution

set_option autoImplicit false

namespace GraphProfile
open Std

def unlessEmpty {α : Type} : List α → Option (List α)
  | [] => none
  | a :: l => some (a :: l)

@[simp] theorem unlessEmpty_cons {α : Type} (a : α) (l : List α) : unlessEmpty (a :: l) = some (a :: l) := rfl

@[simp] theorem getD_unlessEmpty {α : Type} (l : List α) : (unlessEmpty l).getD [] = l := by
  cases l <;> rfl

/-- An empty cell reads as nothing. -/
def reads (label : String) (cell : Option Value) : Bool := cell.any fun v => v.display == label

theorem reads_eq (label : String) (cell : Option Value) : reads label cell = decide (cell.map Value.display = some label) := by
  cases cell with
  | none => rfl
  | some v => exact (decide_eq_decide.2 Option.some_inj).symm

namespace Table

def rowsReading (label : String) (cells : List (Option Value × Nat)) : List Nat :=
  (cells.filter fun cell => reads label cell.1).map Prod.snd

theorem getElem?_foldr_addRow (cells : List (Option Value × Nat)) (label : String) :
    (cells.foldr addRow ∅)[label]? = unlessEmpty (rowsReading label cells) := by
  induction cells with
  | nil => rfl
  | cons cell cells ih =>
    obtain ⟨value, row⟩ := cell
    rw [List.foldr_cons, addRow]
    cases value with
    | none => exact ih
    | some v =>
      rw [ExtTreeMap.getElem?_alter]
      by_cases h : v.display = label
      · have hrows : rowsReading label ((some v, row) :: cells) = row :: rowsReading label cells := by
          simp [rowsReading, reads, h]
        simp [h, ih, hrows]
      · have hrows : rowsReading label ((some v, row) :: cells) = rowsReading label cells := by
          simp [rowsReading, reads, h]
        simp [h, ih, hrows]

theorem getElem?_rowsByLabel (labels : List (Option Value)) (label : String) :
    (rowsByLabel labels)[label]? = unlessEmpty (rowsReading label labels.zipIdx) :=
  getElem?_foldr_addRow labels.zipIdx label

theorem length_rowsReading (label : String) (labels : List (Option Value)) :
    (rowsReading label labels.zipIdx).length = (labels.filterMap (Option.map Value.display)).count label := by
  have hfst := congrArg (List.countP (reads label)) (List.zipIdx_map_fst 0 labels)
  rw [List.countP_map] at hfst
  have hcount : (labels.filterMap (Option.map Value.display)).count label = labels.countP (reads label) := by
    rw [List.count, List.countP_filterMap]
    apply List.countP_congr
    intro cell _
    cases cell <;> simp [reads]
  rw [hcount, ← hfst, List.countP_eq_length_filter, rowsReading, List.length_map]
  rfl

/-- Which rows a label has is known from what the cells are displayed as. -/
theorem rowsReading_congr {labels others : List (Option Value)}
    (h : labels.map (Option.map Value.display) = others.map (Option.map Value.display)) (label : String) :
    rowsReading label labels.zipIdx = rowsReading label others.zipIdx := by
  have hdisplayed : ∀ labels : List (Option Value), rowsReading label labels.zipIdx =
      (((labels.map (Option.map Value.display)).zipIdx).filter fun e => decide (e.1 = some label)).map Prod.snd := by
    intro labels
    rw [List.zipIdx_map, List.filter_map, List.map_map, rowsReading]
    simp only [reads_eq]
    rfl
  rw [hdisplayed, hdisplayed, h]

theorem filter_partitions (t : Table) (labelColumn : String) (groups : ExtTreeMap String (List Nat)) (label : String) :
    ((t.partitions labelColumn groups).filter fun p => p.label = label) =
      (groups[label]?.map (t.partition labelColumn label)).toList := by
  have hkey := congrArg (List.map fun group => t.partition labelColumn group.1 group.2) (filter_key_toList groups label)
  rw [partitions, List.filter_map]
  refine hkey.trans ?_
  cases groups[label]? <;> rfl

end Table

namespace Contribution

theorem ofList_partitions {β : Type} (t : Table) (labelColumn : String) (groups : ExtTreeMap String (List Nat))
    (f : Partition → β) :
    ExtTreeMap.ofList ((t.partitions labelColumn groups).map fun p => (p.label, f p)) =
      groups.map fun label rows => f (t.partition labelColumn label rows) := by
  rw [← ofList_toList (groups.map _), ExtTreeMap.toList_map, Table.partitions, List.map_map]
  rfl

end Contribution
end GraphProfile
