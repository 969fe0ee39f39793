import GraphProfile.Proofs.Runs
import GraphProfile.Proofs.Stacks

set_option autoImplicit false

namespace GraphProfile

namespace Source

theorem partition?_of_table {settings : Settings} {s : Source} {t : Table} (ht : s.table = .ok t) (label : String) :
    let labelColumn := settings.labelColumns.get s.kind
    s.partition? settings label = (t.ofLabel? labelColumn label).map (Partition.mk label labelColumn) := by
  intro labelColumn
  rw [Table.ofLabel?]
  cases hl : t.column? labelColumn with
  | none =>
    have hnone : s.labelColumn? settings = none := by
      rw [labelColumn?, ht]
      exact hl
    have hcells : Table.cells labelColumn t = List.replicate t.rowCount none := by rw [Table.cells, hl]
    rw [partition?_of_labelColumn?_eq_none hnone, Table.rowCount_ofLabel, hcells, List.filterMap_replicate_of_none rfl]
    rfl
  | some labels =>
    have hcells : Table.cells labelColumn t = labels.values := by rw [Table.cells, hl]
    rw [partition?_eq ht hl, Table.getElem?_rowsByLabel, Table.ofLabel, hcells]
    cases Table.rowsReading label labels.values.zipIdx with
    | nil => rfl
    | cons row rows => rfl

theorem rowLabels_of_table {settings : Settings} {s : Source} {t : Table} (ht : s.table = .ok t) :
    s.rowLabels settings =
      (Table.cells (settings.labelColumns.get s.kind) t).filterMap (Option.map Value.display) := by
  rw [rowLabels, labelColumn?, ht, Table.cells]
  change Option.elim (t.column? _) [] _ = _
  cases t.column? (settings.labelColumns.get s.kind) with
  | none => rw [List.filterMap_replicate_of_none rfl, Option.elim_none]
  | some labels => rfl

theorem exists_table_of_partition? {settings : Settings} {s : Source} {label : String} {p : Partition}
    (h : s.partition? settings label = some p) : ∃ t, s.table = .ok t := by
  cases ht : s.table with
  | error e =>
    rw [partition?, ht] at h
    cases h
  | ok t => exact ⟨t, rfl⟩

theorem eq_of_partition? {settings : Settings} {s : Source} {t : Table} (ht : s.table = .ok t) {label : String}
    {p : Partition} (h : s.partition? settings label = some p) :
    p = ⟨label, settings.labelColumns.get s.kind, t.ofLabel (settings.labelColumns.get s.kind) label⟩ := by
  rw [partition?_of_table ht] at h
  obtain ⟨u, hu, rfl⟩ := Option.map_eq_some_iff.1 h
  rw [Table.ofLabel?_eq_some _ _ hu]

theorem mem_rowLabels_of_partition? {settings : Settings} {s : Source} {label : String} {p : Partition}
    (h : s.partition? settings label = some p) : label ∈ s.rowLabels settings := by
  have hcount := rowCount_partition? settings s label
  rw [h, Option.map_some] at hcount
  have hpos := (isSome_positive? ((s.rowLabels settings).count label)).1 (hcount ▸ rfl)
  exact List.count_pos_iff.1 hpos

end Source

namespace Report

/-- The profile of a run is known from the labels of the rows and from the records. -/
theorem profile_eq_of_record? {settings settings' : Settings} {sources sources' : List Source}
    (hlabels : ∀ k, ((Source.ofKind k sources).flatMap (Source.rowLabels settings)).Perm
      ((Source.ofKind k sources').flatMap (Source.rowLabels settings')))
    (hrecords : ∀ k label name, ((ofSources settings sources).profile.get k).record? label name =
      ((ofSources settings' sources').profile.get k).record? label name) :
    (ofSources settings sources).profile = (ofSources settings' sources').profile := by
  apply Profile.eq_of_get
  intro k
  apply Section.eq_of_record? (occupied_ofSources settings sources k) (occupied_ofSources settings' sources' k)
  · rw [total_ofSources, total_ofSources, (hlabels k).length_eq]
  · apply Std.ExtTreeMap.ext_getElem?
    intro label
    rw [labelCounts_ofSources, labelCounts_ofSources, (hlabels k).count_eq]
  · exact hrecords k

section
variable {settings : Settings} {sources : List Source}

theorem partitions_of_apart
    (h : sources.Pairwise fun s t => s.kind = t.kind → (s.rowLabels settings).Disjoint (t.rowLabels settings))
    (k : Kind) (label : String) :
    Source.partitions settings label (Source.ofKind k sources) = [] ∨
      ∃ s ∈ sources, s.kind = k ∧ ∃ p, s.partition? settings label = some p ∧
        Source.partitions settings label (Source.ofKind k sources) = [p] := by
  have hapart : (Source.partitions settings label (Source.ofKind k sources)).Pairwise fun _ _ => False := by
    rw [Source.partitions, List.pairwise_filterMap, Source.ofKind, List.pairwise_filter]
    refine h.imp ?_
    intro s t hst hs ht p hp q hq
    have hkind : s.kind = t.kind := (of_decide_eq_true hs).trans (of_decide_eq_true ht).symm
    exact hst hkind (Source.mem_rowLabels_of_partition? hp) (Source.mem_rowLabels_of_partition? hq)
  cases hparts : Source.partitions settings label (Source.ofKind k sources) with
  | nil => exact .inl rfl
  | cons p parts =>
    rw [hparts, List.pairwise_cons] at hapart
    obtain rfl : parts = [] := List.eq_nil_iff_forall_not_mem.2 hapart.1
    have hp : p ∈ Source.partitions settings label (Source.ofKind k sources) := by simp [hparts]
    obtain ⟨s, hs, hpart⟩ := List.mem_filterMap.1 hp
    obtain ⟨hs, hkind⟩ := List.mem_filter.1 hs
    exact .inr ⟨s, hs, of_decide_eq_true hkind, p, hpart, rfl⟩

theorem stacked_of_partitions {s : Source} {k : Kind} {label : String} {p : Partition} (hkind : s.kind = k)
    (hnames : ∀ t, s.table = .ok t → t.names.Nodup) (hp : s.partition? settings label = some p)
    (hparts : Source.partitions settings label (Source.ofKind k sources) = [p]) :
    stacked settings sources k label = p := by
  obtain ⟨t, ht⟩ := Source.exists_table_of_partition? hp
  have hpart := Source.eq_of_partition? ht hp
  rw [stacked, hparts, List.map_singleton, hpart]
  simp only
  rw [Table.stack_singleton (by rw [Table.names_ofLabel]; exact hnames t ht), hkind]

/-- Where no label has rows in two sources of its kind, it does not matter by which policy the sources are merged. -/
theorem onWorkers_replace_eq_combine (hwell : ∀ s ∈ sources, ∀ t, s.table = .ok t → t.WellFormed)
    (hapart : sources.Pairwise fun s t => s.kind = t.kind → (s.rowLabels settings).Disjoint (t.rowLabels settings))
    (schedule other : Schedule sources.length) :
    (onWorkers (settings.withPolicy .replace) sources schedule).profile =
      (onWorkers (settings.withPolicy .combine) sources other).profile := by
  rw [profile_onWorkers, profile_onWorkers]
  apply profile_eq_of_record?
  · intro k
    rfl
  · intro k label name
    rw [record?_ofSources_replace, record?_ofSources_combine, Source.filterMap_record?]
    rcases partitions_of_apart hapart k label with hnone | ⟨s, hs, hkind, p, hp, hparts⟩
    · rw [stacked, hnone]
      rfl
    · rw [stacked_of_partitions hkind (fun t ht => (hwell s hs t ht).1) hp hparts, hparts, List.filterMap_cons]
      cases (p.attributes settings.maxBins)[name]? <;> rfl

/-- A label of vertices and edges alike, rows without a label, a table without the label column and one that fails. -/
theorem onWorkers_replace_eq_combine_mixed :
    let people : Table := ⟨[⟨":LABEL", none, [some (.text "Person"), none, some (.text "Person")]⟩,
      ⟨"age:long", some .int, [some (.int 7), some (.int 8), none]⟩], 3⟩
    let towns : Table := ⟨[⟨"name", none, [some (.text "Ulm"), some (.int 7)]⟩,
      ⟨":LABEL", none, [some (.text "Town"), some (.text "Town")]⟩], 2⟩
    let ties : Table := ⟨[⟨":TYPE", none, [some (.text "Person")]⟩, ⟨"age", some .float, [some (.float 0.5)]⟩], 1⟩
    let sources : List Source := [⟨"a", .vertex, .ok people⟩, ⟨"b", .vertex, .error (.internal "x")⟩,
      ⟨"c", .edge, .ok ties⟩, ⟨"d", .vertex, .ok towns⟩, ⟨"e", .vertex, .ok ties⟩]
    let backwards : Schedule 5 := ⟨[4, 3, 2, 1, 0, 0, 1, 2, 3, 4], by decide⟩
    (∀ s ∈ sources, ∀ t, s.table = .ok t → t.WellFormed) ∧
      (sources.Pairwise fun s t => s.kind = t.kind →
        (s.rowLabels .standard).Disjoint (t.rowLabels .standard)) ∧
      (onWorkers (Settings.standard.withPolicy .replace) sources (.inOrder 5)).profile =
        (onWorkers (Settings.standard.withPolicy .combine) sources backwards).profile := by
  intro people towns ties sources backwards
  have hwell : ∀ s ∈ sources, ∀ t, s.table = .ok t → t.WellFormed := by
    simp only [sources, List.forall_mem_cons]
    refine ⟨?_, ?_, ?_, ?_, ?_, by simp⟩ <;> intro t ht <;> cases ht <;> decide
  have hapart : sources.Pairwise fun s t => s.kind = t.kind →
      (s.rowLabels .standard).Disjoint (t.rowLabels .standard) := by
    simp only [List.Disjoint]
    decide
  exact ⟨hwell, hapart, onWorkers_replace_eq_combine hwell hapart (.inOrder 5) backwards⟩

end

theorem ofKind_of_forall {sources : List Source} {k : Kind} (h : ∀ s ∈ sources, s.kind = k) (j : Kind) :
    Source.ofKind j sources = if k = j then sources else [] := by
  rw [Source.ofKind]
  by_cases hk : k = j
  · rw [if_pos hk, List.filter_eq_self]
    intro s hs
    exact decide_eq_true ((h s hs).trans hk)
  · rw [if_neg hk, List.filter_eq_nil_iff]
    intro s hs hj
    exact hk ((h s hs).symm.trans (of_decide_eq_true hj))

def named (k : Kind) (tables : List (String × Table)) : List Source := tables.map fun e => ⟨e.1, k, .ok e.2⟩

theorem ofKind_named (k j : Kind) (tables : List (String × Table)) :
    Source.ofKind j (named k tables) = if k = j then named k tables else [] := by
  apply ofKind_of_forall
  intro s hs
  obtain ⟨e, -, rfl⟩ := List.mem_map.1 hs
  rfl

theorem rowLabels_named (settings : Settings) (k : Kind) (tables : List (String × Table)) :
    (named k tables).flatMap (Source.rowLabels settings) =
      (Table.cells (settings.labelColumns.get k) (.stack (tables.map Prod.snd))).filterMap
        (Option.map Value.display) := by
  rw [Table.cells_stack, List.flatMap_map, List.filterMap_flatMap, named, List.flatMap_map]
  exact List.flatMap_congr fun e _ => Source.rowLabels_of_table rfl

theorem tables_partitions_named (settings : Settings) (label : String) (k : Kind) (tables : List (String × Table)) :
    (Source.partitions settings label (named k tables)).map Partition.table =
      (tables.map Prod.snd).filterMap (Table.ofLabel? · (settings.labelColumns.get k) label) := by
  rw [Source.partitions, named, List.filterMap_map, List.map_filterMap, List.filterMap_map]
  apply List.filterMap_congr
  intro e _
  simp only [Function.comp_apply]
  rw [Source.partition?_of_table rfl, Option.map_map]
  exact congrFun Option.map_id _

theorem profile_stack {settings : Settings} (k : Kind) {tables : List (String × Table)}
    {common : List (String × Option ValueType)} (hwell : ∀ e ∈ tables, e.2.WellFormed)
    (hheading : ∀ e ∈ tables, e.2.heading = common) (name : String) :
    (ofSources (settings.withPolicy .combine) (named k tables)).profile =
      (ofSources (settings.withPolicy .combine) (named k [(name, .stack (tables.map Prod.snd))])).profile := by
  have hwell' : ∀ t ∈ tables.map Prod.snd, t.WellFormed := by
    intro t ht
    obtain ⟨e, he, rfl⟩ := List.mem_map.1 ht
    exact hwell e he
  have hheading' : ∀ t ∈ tables.map Prod.snd, t.heading = common := by
    intro t ht
    obtain ⟨e, he, rfl⟩ := List.mem_map.1 ht
    exact hheading e he
  apply profile_eq_of_record?
  · intro j
    rw [ofKind_named k j tables, ofKind_named k j [_]]
    by_cases hk : k = j
    · rw [if_pos hk, if_pos hk, rowLabels_named, rowLabels_named, List.map_singleton,
        Table.stack_singleton (Table.wellFormed_stack hwell').1]
    · rw [if_neg hk, if_neg hk]
  · intro j label key
    rw [record?_ofSources_combine, record?_ofSources_combine, stacked, stacked,
      ofKind_named k j tables, ofKind_named k j [_]]
    by_cases hk : k = j
    · rw [if_pos hk, if_pos hk, tables_partitions_named, tables_partitions_named,
        Table.stack_ofLabel _ label hwell' hheading', List.map_singleton]
      rfl
    · rw [if_neg hk, if_neg hk]

section
variable {settings : Settings} (k : Kind) (name : String)

theorem stacked_named (label : String) {t : Table} (ht : t.names.Nodup) :
    let labelColumn := settings.labelColumns.get k
    stacked settings (named k [(name, t)]) k label = ⟨label, labelColumn,
      if (t.ofLabel labelColumn label).rowCount = 0 then .stack [] else t.ofLabel labelColumn label⟩ := by
  intro labelColumn
  rw [stacked, ofKind_named k k [_], if_pos rfl, tables_partitions_named, List.map_singleton, List.filterMap_cons,
    Table.ofLabel?]
  by_cases hcount : (t.ofLabel labelColumn label).rowCount = 0
  · rw [if_pos hcount, if_pos hcount]
    rfl
  · rw [if_neg hcount, if_neg hcount]
    exact congrArg _ (Table.stack_singleton (by rwa [Table.names_ofLabel]))

/-- A table is known to a run from its labels and from what it has in the data columns beside each of them. -/
theorem profile_of_table {t u : Table} (ht : t.names.Nodup) (hu : u.names.Nodup)
    (hlabels : (Table.cells (settings.labelColumns.get k) t).map (Option.map Value.display) =
      (Table.cells (settings.labelColumns.get k) u).map (Option.map Value.display))
    (hattributes : ∀ label, some label ∈ (Table.cells (settings.labelColumns.get k) u).map (Option.map Value.display) →
      let labelColumn := settings.labelColumns.get k
      (Partition.mk label labelColumn (t.ofLabel labelColumn label)).attributes settings.maxBins =
        (Partition.mk label labelColumn (u.ofLabel labelColumn label)).attributes settings.maxBins) (other : String) :
    (ofSources (settings.withPolicy .combine) (named k [(name, t)])).profile =
      (ofSources (settings.withPolicy .combine) (named k [(other, u)])).profile := by
  have hdisplayed : (Table.cells (settings.labelColumns.get k) t).filterMap (Option.map Value.display) =
      (Table.cells (settings.labelColumns.get k) u).filterMap (Option.map Value.display) := by
    have hlist := congrArg (List.filterMap id) hlabels
    rwa [List.filterMap_map, List.filterMap_map] at hlist
  apply profile_eq_of_record?
  · intro j
    rw [ofKind_named k j [_], ofKind_named k j [_]]
    by_cases hk : k = j
    · rw [if_pos hk, if_pos hk, rowLabels_named, rowLabels_named, List.map_singleton, List.map_singleton,
        Table.stack_singleton ht, Table.stack_singleton hu]
      exact .of_eq hdisplayed
    · rw [if_neg hk, if_neg hk]
  · intro j label key
    rw [record?_ofSources_combine, record?_ofSources_combine]
    by_cases hk : k = j
    · subst hk
      rw [stacked_named k name label ht, stacked_named k other label hu, Table.rowCount_ofLabel, Table.rowCount_ofLabel,
        hdisplayed]
      by_cases hcount : ((Table.cells (settings.labelColumns.get k) u).filterMap (Option.map Value.display)).count label = 0
      · rw [if_pos hcount, if_pos hcount]
      · rw [if_neg hcount, if_neg hcount, hattributes]
        obtain ⟨cell, hcell, hlabel⟩ := List.mem_filterMap.1 (List.count_pos_iff.1 (Nat.pos_of_ne_zero hcount))
        exact List.mem_map.2 ⟨cell, hcell, hlabel⟩
    · rw [stacked, stacked, ofKind_named k j [_], ofKind_named k j [_], if_neg hk, if_neg hk]

end

/-- Pooling the rows of sources of one heading gives the same profile as a single source with all their rows. -/
theorem onWorkers_stack {settings : Settings} (k : Kind) {tables : List (String × Table)}
    {common : List (String × Option ValueType)} (hwell : ∀ e ∈ tables, e.2.WellFormed)
    (hheading : ∀ e ∈ tables, e.2.heading = common) (name : String) :
    let pieces := named k tables
    let whole := named k [(name, .stack (tables.map Prod.snd))]
    ∀ (schedule : Schedule pieces.length) (other : Schedule whole.length),
      (onWorkers (settings.withPolicy .combine) pieces schedule).profile =
        (onWorkers (settings.withPolicy .combine) whole other).profile := by
  intro pieces whole schedule other
  rw [profile_onWorkers, profile_onWorkers]
  exact profile_stack k hwell hheading name

/-- One label is only in the first table, another in the first and the last, and the second table has no rows. -/
theorem onWorkers_stack_three :
    let first : Table := ⟨[⟨"kind", none, [some (.text "A"), none, some (.text "B")]⟩,
      ⟨"age:long", some .int, [some (.int 7), some (.int 8), none]⟩], 3⟩
    let second : Table := ⟨[⟨"kind", none, []⟩, ⟨"age:long", some .int, []⟩], 0⟩
    let third : Table := ⟨[⟨"kind", none, [none, some (.text "B")]⟩,
      ⟨"age:long", some .int, [some (.int 9), some (.text "x")]⟩], 2⟩
    let tables := [("a", first), ("b", second), ("c", third)]
    let settings := (Settings.standard.withLabelColumns "label" "kind").withPolicy .combine
    let pieces := named .edge tables
    let whole := named .edge [("all", .stack (tables.map Prod.snd))]
    (∀ e ∈ tables, e.2.WellFormed) ∧
      (∀ e ∈ tables, e.2.heading = [("kind", none), ("age:long", some .int)]) ∧
      (onWorkers settings pieces (.inOrder pieces.length)).profile =
        (onWorkers settings whole (.inOrder whole.length)).profile := by
  intro first second third tables settings pieces whole
  have hwell : ∀ e ∈ tables, e.2.WellFormed := by decide
  have hheading : ∀ e ∈ tables, e.2.heading = [("kind", none), ("age:long", some .int)] := by decide
  exact ⟨hwell, hheading, @onWorkers_stack (Settings.standard.withLabelColumns "label" "kind") .edge tables _ hwell
    hheading "all" (.inOrder pieces.length) (.inOrder whole.length)⟩

end Report
end GraphProfile
