import GraphProfile.Proofs.Stacks

set_option autoImplicit false

namespace GraphProfile.Table
open Std

section
variable {label : String} {cells : List (Option Value)}

theorem reads_iff {cell : Option Value} : reads label cell ↔ ∃ v, cell = some v ∧ v.display = label := by
  cases cell <;> simp [reads]

theorem mem_rowsReading {i : ℕ} :
    i ∈ rowsReading label cells.zipIdx ↔ ∃ v, cells[i]? = some (some v) ∧ v.display = label := by
  unfold rowsReading
  simp only [List.mem_map, List.mem_filter, reads_iff]
  constructor
  · rintro ⟨⟨cell, j⟩, ⟨hmem, v, rfl, hlabel⟩, rfl⟩
    exact ⟨v, List.mem_zipIdx_iff_getElem?.1 hmem, hlabel⟩
  · rintro ⟨v, hcell, hlabel⟩
    exact ⟨(some v, i), ⟨List.mem_zipIdx_iff_getElem?.2 hcell, v, rfl, hlabel⟩, rfl⟩

theorem pairwise_rowsReading : (rowsReading label cells.zipIdx).Pairwise (· < ·) := by
  have hindex : cells.zipIdx.Pairwise fun p q => p.2 < q.2 := by
    rw [← List.pairwise_map, List.zipIdx_map_snd]
    exact List.pairwise_lt_range'
  unfold rowsReading
  rw [List.pairwise_map]
  exact hindex.filter _

end

section
variable {labels : List (Option Value)}

theorem mem_groups {g : String × List ℕ} :
    g ∈ (rowsByLabel labels).toList ↔ g.2 = rowsReading g.1 labels.zipIdx ∧ g.2 ≠ [] := by
  obtain ⟨label, rows⟩ := g
  rw [ExtTreeMap.mem_toList_iff_getElem?_eq_some, getElem?_rowsByLabel]
  cases hrows : rowsReading label labels.zipIdx with
  | nil => simp [unlessEmpty]
  | cons i rest =>
    rw [unlessEmpty_cons, Option.some.injEq]
    constructor
    · rintro rfl
      exact ⟨rfl, List.cons_ne_nil i rest⟩
    · rintro ⟨heq, -⟩
      exact heq.symm

theorem pairwise_groups : ((rowsByLabel labels).toList.map Prod.fst).Pairwise (· < ·) := by
  rw [List.pairwise_map]
  exact ExtTreeMap.ordered_keys_toList.imp fun h => compare_lt_iff_lt.1 h

theorem mem_labels_groups {label : String} :
    label ∈ (rowsByLabel labels).toList.map Prod.fst ↔ ∃ v, some v ∈ labels ∧ v.display = label := by
  rw [List.mem_map]
  constructor
  · rintro ⟨g, hg, rfl⟩
    obtain ⟨hrows, hne⟩ := mem_groups.1 hg
    obtain ⟨i, hi⟩ := List.exists_mem_of_ne_nil _ hne
    rw [hrows] at hi
    obtain ⟨v, hv, hlabel⟩ := mem_rowsReading.1 hi
    exact ⟨v, List.mem_of_getElem? hv, hlabel⟩
  · rintro ⟨v, hv, hlabel⟩
    obtain ⟨i, hi⟩ := List.getElem?_of_mem hv
    have hmem := mem_rowsReading.2 ⟨v, hi, hlabel⟩
    exact ⟨(label, rowsReading label labels.zipIdx), mem_groups.2 ⟨rfl, List.ne_nil_of_mem hmem⟩, rfl⟩

theorem mem_group {g : String × List ℕ} (hg : g ∈ (rowsByLabel labels).toList) (i : ℕ) :
    i ∈ g.2 ↔ ∃ v, labels[i]? = some (some v) ∧ v.display = g.1 := by
  rw [(mem_groups.1 hg).1]
  exact mem_rowsReading

/-- No row is in a group twice, and none in two groups. -/
theorem nodup_groups : ((rowsByLabel labels).toList.flatMap Prod.snd).Nodup := by
  rw [List.nodup_flatMap]
  constructor
  · intro g hg
    rw [(mem_groups.1 hg).1]
    exact pairwise_rowsReading.imp fun h => Nat.ne_of_lt h
  · have hascending : ((rowsByLabel labels).toList.map Prod.fst).Pairwise (· < ·) := pairwise_groups
    rw [List.pairwise_map] at hascending
    refine hascending.imp_of_mem ?_
    intro g d hg hd hlt i hig hid
    obtain ⟨v, hv, hlabel⟩ := (mem_group hg i).1 hig
    obtain ⟨w, hw, hlabel'⟩ := (mem_group hd i).1 hid
    obtain rfl : v = w := by simpa using hv.symm.trans hw
    rw [← hlabel, ← hlabel'] at hlt
    exact lt_irrefl _ hlt

theorem count_groups {i : ℕ} {cell : Option Value} (hcell : labels[i]? = some cell) :
    ((rowsByLabel labels).toList.flatMap Prod.snd).count i = if cell.isSome then 1 else 0 := by
  have hmem : i ∈ (rowsByLabel labels).toList.flatMap Prod.snd ↔ cell.isSome := by
    rw [List.mem_flatMap]
    constructor
    · rintro ⟨g, hg, hi⟩
      obtain ⟨v, hv, -⟩ := (mem_group hg i).1 hi
      rw [hcell, Option.some.injEq] at hv
      rw [hv]
      rfl
    · intro hsome
      obtain ⟨v, rfl⟩ := Option.isSome_iff_exists.1 hsome
      obtain ⟨g, hg, hlabel⟩ := List.mem_map.1 (mem_labels_groups.2 ⟨v, List.mem_of_getElem? hcell, rfl⟩)
      exact ⟨g, hg, (mem_group hg i).2 ⟨v, hcell, hlabel.symm⟩⟩
  rw [nodup_groups.count]
  simp only [hmem]

end

theorem columns_take_rowsReading {t : Table} (ht : t.WellFormed) {labels : Column} (hlabels : labels ∈ t.columns)
    (label : String) :
    (t.take (rowsReading label labels.values.zipIdx)).columns =
      t.columns.map fun c => { c with values := beside label labels.values c.values } := by
  rw [take, List.map_inj_left]
  intro c hc
  have hlength : c.values.length = labels.values.length := (ht.2 c hc).trans (ht.2 labels hlabels).symm
  rw [← map_rowsReading label hlength, Column.take]
  simp only [List.getElem?_toArray]

/-- A table with the label column is split by the labels that its rows have, in their order. Each partition has the
    columns of the table with the cells beside its label, as they follow one another. A row that has a label is in one
    group, once, any other row in none, and every position in a group is one of a row. -/
theorem partition?_of_wellFormed {t : Table} (ht : t.WellFormed) (labelColumn : String) :
    (t.partition? labelColumn = none ↔ labelColumn ∉ t.names) ∧
      ∀ labels, t.column? labelColumn = some labels →
        let groups := (rowsByLabel labels.values).toList
        let parts := groups.map fun g => t.partition labelColumn g.1 g.2
        t.partition? labelColumn = some parts ∧
          (parts.map Partition.label).Pairwise (· < ·) ∧
          (∀ label, label ∈ parts.map Partition.label ↔ ∃ v, some v ∈ labels.values ∧ v.display = label) ∧
          (∀ p ∈ parts, p.labelColumn = labelColumn ∧ 0 < p.rowCount ∧
            p.rowCount = (labels.values.filterMap (Option.map Value.display)).count p.label ∧
            p.table.columns = t.columns.map fun c => { c with values := beside p.label labels.values c.values }) ∧
          (∀ g ∈ groups, g.2.Pairwise (· < ·) ∧
            (∀ i, i ∈ g.2 ↔ ∃ v, labels.values[i]? = some (some v) ∧ v.display = g.1) ∧
            ∀ i ∈ g.2, ∀ c ∈ t.columns, i < c.length) ∧
          ∀ i < t.rowCount, ∃ cell, labels.values[i]? = some cell ∧
            (groups.flatMap Prod.snd).count i = if cell.isSome then 1 else 0 := by
  refine ⟨?_, ?_⟩
  · rw [partition?, Option.map_eq_none_iff, column?_eq_none_iff]
  · intro labels hlabels groups parts
    have hmem := (column?_eq_some hlabels).1
    have hlength : labels.values.length = t.rowCount := ht.2 labels hmem
    have hparts : parts.map Partition.label = groups.map Prod.fst := List.map_map
    refine ⟨?_, ?_, ?_, ?_, ?_, ?_⟩
    · rw [partition?, hlabels]
      rfl
    · rw [hparts]
      exact pairwise_groups
    · intro label
      rw [hparts]
      exact mem_labels_groups
    · intro p hp
      obtain ⟨g, hg, rfl⟩ := List.mem_map.1 hp
      obtain ⟨hrows, hne⟩ := mem_groups.1 hg
      refine ⟨rfl, List.length_pos_iff.2 hne, ?_, ?_⟩
      · exact (congrArg List.length hrows).trans (length_rowsReading g.1 labels.values)
      · rw [partition, hrows]
        exact columns_take_rowsReading ht hmem g.1
    · intro g hg
      refine ⟨?_, mem_group hg, ?_⟩
      · rw [(mem_groups.1 hg).1]
        exact pairwise_rowsReading
      · intro i hi c hc
        obtain ⟨v, hv, -⟩ := (mem_group hg i).1 hi
        obtain ⟨hlt, -⟩ := List.getElem?_eq_some_iff.1 hv
        rw [ht.2 c hc, ← hlength]
        exact hlt
    · intro i hi
      have hcell := List.getElem?_eq_getElem (hlength.symm ▸ hi)
      exact ⟨_, hcell, count_groups hcell⟩

/-- An integer, a float and a text that read alike are one label, and a row is without one. -/
theorem partition?_of_wellFormed_mixed :
    let labels : Column := ⟨"kind", none, [some (.text "b"), some (.int 1), none, some (.text "1"), some (.float 1)]⟩
    let sizes : Column := ⟨"size", some .int, [some (.int 5), some (.int 6), some (.int 7), none, some (.int 9)]⟩
    let t : Table := ⟨[sizes, labels], 5⟩
    let groups := (rowsByLabel labels.values).toList
    t.WellFormed ∧ t.partition? "name" = none ∧ t.column? "kind" = some labels ∧
      ∃ parts, t.partition? "kind" = some parts ∧ "1" ∈ parts.map Partition.label ∧
        (∀ p ∈ parts, p.label = "1" →
          p.rowCount = 3 ∧ p.table.column? "size" = some { sizes with values := [some (.int 6), none, some (.int 9)] }) ∧
        (groups.flatMap Prod.snd).count 2 = 0 ∧ (groups.flatMap Prod.snd).count 4 = 1 := by
  intro labels sizes t groups
  have hwell : t.WellFormed := by decide
  have hlabels : t.column? "kind" = some labels := by decide
  have hreads : labels.values.filterMap (Option.map Value.display) = ["b", "1", "1", "1"] := by decide +kernel
  have hbeside : beside "1" labels.values sizes.values = [some (.int 6), none, some (.int 9)] := by decide +kernel
  have hmissing := (partition?_of_wellFormed hwell "name").1.2 (by decide)
  obtain ⟨hparts, -, hmem, hpart, -, hrows⟩ := (partition?_of_wellFormed hwell "kind").2 labels hlabels
  refine ⟨hwell, hmissing, hlabels, _, hparts, ?_, ?_, ?_, ?_⟩
  · exact (hmem "1").2 ⟨.text "1", by decide, rfl⟩
  · intro p hp hone
    obtain ⟨-, -, hcount, hcolumns⟩ := hpart p hp
    rw [hone] at hcount hcolumns
    refine ⟨?_, ?_⟩
    · rw [hcount, hreads]
      decide
    · rw [column?, hcolumns, ← hbeside]
      rfl
  · obtain ⟨cell, hcell, hcount⟩ := hrows 2 (by decide)
    obtain rfl := Option.some.inj hcell
    exact hcount
  · obtain ⟨cell, hcell, hcount⟩ := hrows 4 (by decide)
    obtain rfl := Option.some.inj hcell
    exact hcount

end GraphProfile.Table
