import GraphProfile.Proofs.Rearranged
import GraphProfile.Proofs.Views

set_option autoImplicit false

namespace GraphProfile

/-- All columns are rearranged in the same way. -/
def Table.Reordered (t u : Table) : Prop := ∃ order, order.Perm (List.range t.rowCount) ∧ u = t.take order

/-- Sources that differ in the order of their rows only. -/
inductive Source.Reordered : Source → Source → Prop where
  | failed (path : String) (kind : Kind) (e : Error) : Reordered ⟨path, kind, .error e⟩ ⟨path, kind, .error e⟩
  | read (path : String) (kind : Kind) {t u : Table} (h : t.Reordered u) : Reordered ⟨path, kind, .ok t⟩ ⟨path, kind, .ok u⟩

def View.rows : View where
  shows _ _ := true
  same := List.Perm
  shows_data _ _ := rfl
  refl := .refl
  append := .append

namespace Table

theorem map_range_getElem? {cells : List (Option Value)} {n : ℕ} (h : cells.length = n) :
    ((List.range n).map fun i => cells[i]?.join) = cells := by
  subst h
  apply List.ext_getElem
  · simp
  · intro i _ hi
    simp [hi]

/-- The same cells stand beside a label when rows are rearranged as a whole. -/
theorem beside_perm (label : String) {labels values : List (Option Value)} {order : List ℕ} {n : ℕ}
    (horder : order.Perm (List.range n)) (hlabels : labels.length = n) (hvalues : values.length = n) :
    (beside label labels values).Perm
      (beside label (order.map fun i => labels[i]?.join) (order.map fun i => values[i]?.join)) := by
  have hself : beside label labels values = beside label ((List.range n).map fun i => labels[i]?.join)
      ((List.range n).map fun i => values[i]?.join) := by
    rw [map_range_getElem? hlabels, map_range_getElem? hvalues]
  rw [hself, beside, beside, List.zip_map', List.zip_map']
  exact ((horder.symm.map _).filter _).map _

variable {t u : Table} (ht : ∀ c ∈ t.columns, c.length = t.rowCount) (h : t.Reordered u)
include ht h

theorem cells_reordered (name : String) : (cells name t).Perm (cells name u) := by
  obtain ⟨order, horder, rfl⟩ := h
  rw [cells_take]
  nth_rewrite 1 [← map_range_getElem? (length_cells ht name)]
  exact horder.symm.map _

theorem alike_reordered (labelColumn label : String) :
    Alike .rows labelColumn (t.ofLabel labelColumn label) (u.ofLabel labelColumn label) := by
  have hlabels := cells_reordered ht h labelColumn
  refine ⟨?_, ?_⟩
  · rw [rowCount_ofLabel, rowCount_ofLabel, (hlabels.filterMap _).count_eq]
  · have hshown : ∀ t : Table, t.shown .rows labelColumn = t.columns := fun t => List.filter_true t.columns
    obtain ⟨order, horder, rfl⟩ := h
    rw [hshown, hshown, ofLabel, ofLabel, columns_take, columns_take, columns_take, List.map_map,
      List.forall₂_map_left_iff, List.forall₂_map_right_iff, List.forall₂_same]
    intro c hc
    refine ⟨rfl, rfl, ?_⟩
    have hcells := length_cells ht labelColumn
    change (Column.values _).Perm (Column.values _)
    rw [Function.comp_apply, values_take, values_take, values_take, cells_take, map_rowsReading, map_rowsReading]
    · exact beside_perm label horder hcells (ht c hc)
    · rw [List.length_map, List.length_map]
    · exact (ht c hc).trans hcells.symm

end Table

namespace Source

variable {settings : Settings} {s s' : Source} (hwell : ∀ t, s.table = .ok t → t.WellFormed) (h : Reordered s s')
include h

theorem Reordered.kind_eq : s.kind = s'.kind := by
  cases h <;> rfl

include hwell

theorem Reordered.rowLabels_perm : (s.rowLabels settings).Perm (s'.rowLabels settings) := by
  cases h with
  | failed path kind e => exact .refl _
  | read path kind h =>
    rw [rowLabels_of_table rfl, rowLabels_of_table rfl]
    exact (Table.cells_reordered (hwell _ rfl).2 h _).filterMap _

theorem Reordered.partition? (label : String) :
    Option.Rel (Partition.Alike .rows) (s.partition? settings label) (s'.partition? settings label) := by
  cases h with
  | failed path kind e => exact .none
  | read path kind h =>
    apply partition?_of_alike
    · rfl
    · rfl
    · rfl
    · exact Table.alike_reordered (hwell _ rfl).2 h _ label

end Source

namespace Report

/-- The order of the rows leaves no trace in a profile, unless it decides which of the two zeros is the bound of some
    column. -/
theorem onWorkers_reordered {settings : Settings} {sources sources' : List Source}
    (hwell : ∀ s ∈ sources, ∀ t, s.table = .ok t → t.WellFormed) (h : List.Forall₂ Source.Reordered sources sources')
    (hends : ∀ k label, ∀ p ∈ measured settings sources k label, ∀ c ∈ p.dataColumns, (Partition.valuesOf c).PlainEnds)
    (schedule : Schedule sources.length) (other : Schedule sources'.length) :
    (onWorkers settings sources schedule).profile = (onWorkers settings sources' other).profile := by
  rw [profile_onWorkers, profile_onWorkers]
  apply profile_eq_of_alike ((List.forall₂_and_left _ _).2 ⟨hwell, h⟩)
  · exact fun _ _ hs => hs.2.kind_eq
  · exact fun _ _ hs => hs.2.partition? hs.1
  · exact fun _ _ hs => hs.2.rowLabels_perm hs.1
  · intro k label p hp c hc d hcd
    exact Partition.recordOf_perm settings.maxBins hcd.name_eq hcd.declared_eq hcd.values (hends k label p hp c hc)

/-- Numbers of both types, both zeros between lesser and greater ones, rows without a label and a table that fails. -/
theorem onWorkers_reordered_mixed :
    let settings := Settings.standard.withPolicy .combine
    let people : Table := ⟨[⟨":LABEL", none, [some (.text "A"), none, some (.text "A"), some (.text "B")]⟩,
      ⟨"height", none, [some (.float 0), some (.text "x"), some (.int (-1)), none]⟩,
      ⟨"name", none, [some (.text "x"), none, some (.text "y"), some (.int 7)]⟩], 4⟩
    let people' : Table := ⟨[⟨":LABEL", none, [some (.text "B"), some (.text "A"), none, some (.text "A")]⟩,
      ⟨"height", none, [none, some (.int (-1)), some (.text "x"), some (.float 0)]⟩,
      ⟨"name", none, [some (.int 7), some (.text "y"), none, some (.text "x")]⟩], 4⟩
    let later : Table := ⟨[⟨"height", none, [some (.float (-0)), some (.float 2.5)]⟩,
      ⟨":LABEL", none, [some (.text "A"), some (.text "A")]⟩], 2⟩
    let later' : Table := ⟨[⟨"height", none, [some (.float 2.5), some (.float (-0))]⟩,
      ⟨":LABEL", none, [some (.text "A"), some (.text "A")]⟩], 2⟩
    let sources : List Source := [⟨"a", .vertex, .ok people⟩, ⟨"b", .edge, .error (.internal "x")⟩, ⟨"c", .vertex, .ok later⟩]
    let sources' : List Source :=
      [⟨"a", .vertex, .ok people'⟩, ⟨"b", .edge, .error (.internal "x")⟩, ⟨"c", .vertex, .ok later'⟩]
    let backwards : Schedule 3 := ⟨[2, 1, 0, 0, 1, 2], by decide⟩
    (∀ s ∈ sources, ∀ t, s.table = .ok t → t.WellFormed) ∧ List.Forall₂ Source.Reordered sources sources' ∧
      (∀ k label, ∀ p ∈ measured settings sources k label, ∀ c ∈ p.dataColumns, (Partition.valuesOf c).PlainEnds) ∧
      (onWorkers settings sources (.inOrder 3)).profile = (onWorkers settings sources' backwards).profile := by
  intro settings people people' later later' sources sources' backwards
  have hwell : ∀ s ∈ sources, ∀ t, s.table = .ok t → t.WellFormed := by
    simp only [sources, List.forall_mem_cons]
    refine ⟨?_, ?_, ?_, by simp⟩ <;> intro t ht <;> cases ht <;> decide
  have h : List.Forall₂ Source.Reordered sources sources' :=
    .cons (.read _ _ ⟨[3, 2, 1, 0], by decide, by decide +kernel⟩) (.cons (.failed _ _ _)
      (.cons (.read _ _ ⟨[1, 0], by decide, by decide +kernel⟩) .nil))
  have hends : ∀ k label, ∀ p ∈ measured settings sources k label, ∀ c ∈ p.dataColumns,
      (Partition.valuesOf c).PlainEnds := by
    intro k label p hp c hc
    have hlabel := mem_rowLabels_of_measured hp (Partition.mem_dataColumns.1 hc).1
    have hall : ∀ k, ∀ label ∈ (Source.ofKind k sources).flatMap (Source.rowLabels settings),
        ∀ p ∈ measured settings sources k label, ∀ c ∈ p.dataColumns, (Partition.valuesOf c).PlainEnds := by
      intro k
      cases k <;> decide +kernel
    exact hall k label hlabel p hp c hc
  exact ⟨hwell, h, hends, onWorkers_reordered hwell h hends (.inOrder 3) backwards⟩

end Report
end GraphProfile
