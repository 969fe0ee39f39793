import GraphProfile.Proofs.Pools

set_option autoImplicit false

namespace GraphProfile

namespace Record

theorem length_typed_le (cells : List (Option Value)) (type : ValueType) :
    (Classified.typed cells type).length ≤ cells.length := by
  cases type with
  | int => exact List.length_filterMap_le _ cells
  | float => exact (List.length_filter_le _ _).trans (List.length_filterMap_le _ cells)
  | string => exact List.length_filterMap_le _ cells

theorem totalRows_withSpread (maxBins rows : ℕ) (r : Record) (s : Option Spread) :
    (r.withSpread maxBins rows s).totalRows = r.totalRows := by
  cases s <;> rfl

theorem totalRows_withTexts (r : Record) (texts : List String) : (r.withTexts texts).totalRows = r.totalRows := by
  rw [withTexts]
  split <;> rfl

theorem totalRows_ofClassified (maxBins rows : ℕ) (c : Classified) :
    (ofClassified maxBins rows c).totalRows = c.values.length + c.nullCount := by
  rw [ofClassified]
  cases hv : c.values with
  | text texts => exact totalRows_withTexts _ texts
  | int ns => exact totalRows_withSpread maxBins rows _ _
  | float xs => exact totalRows_withSpread maxBins rows _ _

section
variable (maxBins rows : ℕ) (c : Classified)

theorem ofClassified_eq : (ofClassified maxBins rows c).type = c.type ∧
    (ofClassified maxBins rows c).count = c.values.length := by
  have hspread : ∀ (r : Record) (s : Option Spread), (r.withSpread maxBins rows s).type = r.type ∧
      (r.withSpread maxBins rows s).count = r.count := by
    intro r s
    cases s <;> exact ⟨rfl, rfl⟩
  have htexts : ∀ (r : Record) (texts : List String), (r.withTexts texts).type = r.type ∧
      (r.withTexts texts).count = r.count := by
    intro r texts
    rw [withTexts]
    split <;> exact ⟨rfl, rfl⟩
  rw [ofClassified]
  cases c.values with
  | text texts => exact htexts _ texts
  | int ns => exact hspread _ _
  | float xs => exact hspread _ _

theorem histogram_ofClassified {texts : List String} (h : c.values = .text texts) :
    (ofClassified maxBins rows c).histogram.frequencies = Histogram.countTexts texts := by
  rw [ofClassified, h]
  simp only [withTexts]
  split
  · rename_i hnone
    rw [hnone]
    rfl
  · rfl

end

/-- Every row of a column has a value that is kept or is counted as one without. -/
theorem totalRows_ofColumn (maxBins : ℕ) (declared : Option ValueType) (c : Column) :
    (ofColumn maxBins declared c).totalRows = c.length := by
  rw [ofColumn, totalRows_ofClassified]
  exact Nat.add_sub_cancel' (length_typed_le c.values _)

end Record

namespace Partition

/-- The record of a column, which is of the type that the column declares or else its header. -/
def recordOf (maxBins : ℕ) (c : Column) : Record :=
  .ofColumn maxBins (c.declared.or (Header.parse c.name).declared) c

theorem totalRows_recordOf (maxBins : ℕ) (c : Column) : (recordOf maxBins c).totalRows = c.length :=
  Record.totalRows_ofColumn maxBins _ c

/-- What the record of a column with this header is filed under. -/
def keyFor (found : Attributes) (raw : String) : String :=
  if (Header.parse raw).name ∈ found then (Header.parse raw).raw else (Header.parse raw).name

theorem addAttribute_eq (maxBins : ℕ) (found : Attributes) (c : Column) :
    addAttribute maxBins found c = found.insert (keyFor found c.name) (recordOf maxBins c) := rfl

theorem mem_dataColumns {p : Partition} {c : Column} :
    c ∈ p.dataColumns ↔ c ∈ p.table.columns ∧ (Header.parse c.name).isStructural = false ∧ c.name ≠ p.labelColumn := by
  rw [dataColumns, List.mem_filter, isData, Bool.and_eq_true, Bool.not_eq_true', bne_iff_ne]

theorem exists_column_of_record {maxBins : ℕ} {p : Partition} {name : String} {r : Record}
    (h : (p.attributes maxBins)[name]? = some r) : ∃ c ∈ p.dataColumns, recordOf maxBins c = r := by
  have hall : ∀ (name : String) (r : Record), (p.attributes maxBins)[name]? = some r →
      ∃ c ∈ p.dataColumns, recordOf maxBins c = r := by
    refine List.foldlRecOn (motive := fun found : Attributes => ∀ (name : String) (r : Record),
      found[name]? = some r → ∃ c ∈ p.dataColumns, recordOf maxBins c = r) p.dataColumns _ ?_ ?_
    · intro name r hr
      simp at hr
    · intro found ih c hc name r hr
      rw [addAttribute_eq, Std.ExtTreeMap.getElem?_insert] at hr
      split at hr
      · exact ⟨c, hc, Option.some.inj hr⟩
      · exact ih name r hr
  exact hall name r h

theorem attributes_eq_of_records {maxBins : ℕ} {p q : Partition}
    (h : (p.dataColumns.map fun c => (c.name, recordOf maxBins c)) =
      q.dataColumns.map fun c => (c.name, recordOf maxBins c)) : p.attributes maxBins = q.attributes maxBins := by
  have hfold : ∀ o : Partition, o.attributes maxBins = (o.dataColumns.map fun c => (c.name, recordOf maxBins c)).foldl
      (fun found entry => found.insert (keyFor found entry.1) entry.2) ∅ := by
    intro o
    rw [List.foldl_map]
    rfl
  rw [hfold, hfold, h]

end Partition

namespace Report

/-- The partitions of which a run takes the records of a label. -/
def measured (settings : Settings) (sources : List Source) (k : Kind) (label : String) : List Partition :=
  match settings.policy with
  | .replace => Source.partitions settings label (Source.ofKind k sources)
  | .combine => [stacked settings sources k label]

section
variable (settings : Settings) (sources : List Source) (k : Kind) (label : String)

/-- Of several records for an attribute that of the last partition stands. -/
theorem record?_ofSources (name : String) :
    ((ofSources settings sources).profile.get k).record? label name =
      ((measured settings sources k label).filterMap fun p => (p.attributes settings.maxBins)[name]?).getLast? := by
  have hself : settings = settings.withPolicy settings.policy := rfl
  rw [measured]
  cases hpolicy : settings.policy with
  | replace =>
    have hreplace := record?_ofSources_replace settings sources k label name
    rw [← hpolicy, ← hself] at hreplace
    rw [hreplace, Source.filterMap_record?]
  | combine =>
    have hcombine := record?_ofSources_combine settings sources k label name
    rw [← hpolicy, ← hself] at hcombine
    rw [hcombine, List.filterMap_cons]
    cases ((stacked settings sources k label).attributes settings.maxBins)[name]? <;> rfl

theorem labelColumn_measured : ∀ p ∈ measured settings sources k label, p.labelColumn = settings.labelColumns.get k := by
  intro p hp
  rw [measured] at hp
  cases hpolicy : settings.policy with
  | replace =>
    rw [hpolicy] at hp
    exact Source.labelColumn_partitions settings label k sources p hp
  | combine =>
    rw [hpolicy] at hp
    rw [List.mem_singleton.1 hp]
    rfl

variable {settings sources k label}

theorem exists_measured_of_record? {name : String} {r : Record}
    (h : ((ofSources settings sources).profile.get k).record? label name = some r) :
    ∃ p ∈ measured settings sources k label, (p.attributes settings.maxBins)[name]? = some r := by
  rw [record?_ofSources] at h
  exact List.mem_filterMap.1 (List.mem_of_getLast? h)

end

/-- The profile of a run is known from the labels of the rows and from what is measured. -/
theorem profile_eq_of_measured {settings : Settings} {sources sources' : List Source}
    (hlabels : ∀ k, ((Source.ofKind k sources).flatMap (Source.rowLabels settings)).Perm
      ((Source.ofKind k sources').flatMap (Source.rowLabels settings)))
    (hmeasured : ∀ k label, List.Forall₂ (fun p q => p.attributes settings.maxBins = q.attributes settings.maxBins)
      (measured settings sources k label) (measured settings sources' k label)) :
    (ofSources settings sources).profile = (ofSources settings sources').profile := by
  apply profile_eq_of_record? hlabels
  intro k label name
  have hsame : (measured settings sources k label).map (Partition.attributes settings.maxBins) =
      (measured settings sources' k label).map (Partition.attributes settings.maxBins) := by
    rw [← List.forall₂_eq_eq_eq, List.forall₂_map_left_iff, List.forall₂_map_right_iff]
    exact hmeasured k label
  have hlookup := congrArg (List.filterMap fun found : Attributes => found[name]?) hsame
  rw [List.filterMap_map, List.filterMap_map] at hlookup
  rw [record?_ofSources, record?_ofSources]
  exact congrArg List.getLast? hlookup

section
variable (settings : Settings) (sources : List Source) (k : Kind) (label : String)

theorem rowCount_stacked :
    (stacked settings sources k label).rowCount =
      ((Source.ofKind k sources).flatMap (Source.rowLabels settings)).count label := by
  have hrows : ∀ s : Source, (s.partition? settings label).elim 0 Partition.rowCount =
      (s.rowLabels settings).count label := by
    intro s
    have hcount := Source.rowCount_partition? settings s label
    cases hp : s.partition? settings label with
    | none =>
      rw [hp, Option.map_none] at hcount
      by_contra hne
      rw [positive?_of_ne (Ne.symm hne)] at hcount
      cases hcount
    | some p =>
      rw [hp, Option.map_some] at hcount
      exact eq_of_positive? hcount.symm
  rw [Partition.rowCount, stacked, Table.rowCount_stack, List.map_map, Source.partitions, List.count_flatMap]
  exact (Table.sum_filterMap _ Partition.rowCount _).trans
    (congrArg List.sum (List.map_congr_left fun s _ => hrows s))

variable {settings sources k label}

theorem length_columns_of_partition? {s : Source} {p : Partition} (h : s.partition? settings label = some p) :
    ∀ c ∈ p.table.columns, c.length = p.rowCount := by
  obtain ⟨t, ht⟩ := Source.exists_table_of_partition? h
  rw [Source.eq_of_partition? ht h]
  exact Table.length_columns_take t _

theorem length_columns_stacked :
    ∀ c ∈ (stacked settings sources k label).table.columns, c.length = (stacked settings sources k label).rowCount := by
  apply Table.length_columns_stack
  intro t ht
  obtain ⟨p, hp, rfl⟩ := List.mem_map.1 ht
  obtain ⟨s, -, hpart⟩ := List.mem_filterMap.1 hp
  exact length_columns_of_partition? hpart

theorem totalRows_of_attributes {p : Partition} (hlength : ∀ c ∈ p.table.columns, c.length = p.rowCount) {name : String}
    {r : Record} (h : (p.attributes settings.maxBins)[name]? = some r) : r.totalRows = p.rowCount := by
  obtain ⟨c, hc, rfl⟩ := Partition.exists_column_of_record h
  rw [Partition.totalRows_recordOf, hlength c (Partition.mem_dataColumns.1 hc).1]

theorem exists_partition_of_measured {p : Partition} (hp : p ∈ measured settings sources k label) {c : Column}
    (hc : c ∈ p.table.columns) : ∃ s ∈ Source.ofKind k sources, ∃ q, s.partition? settings label = some q := by
  have hsome : ∃ q, q ∈ Source.partitions settings label (Source.ofKind k sources) := by
    rw [measured] at hp
    cases hpolicy : settings.policy with
    | replace =>
      rw [hpolicy] at hp
      exact ⟨p, hp⟩
    | combine =>
      rw [hpolicy] at hp
      rw [List.mem_singleton.1 hp] at hc
      obtain ⟨name, hname, -⟩ := List.mem_map.1 hc
      obtain ⟨t, ht, -⟩ := Table.mem_allNames.1 hname
      obtain ⟨q, hq, -⟩ := List.mem_map.1 ht
      exact ⟨q, hq⟩
  obtain ⟨q, hq⟩ := hsome
  obtain ⟨s, hs, hpart⟩ := List.mem_filterMap.1 hq
  exact ⟨s, hs, q, hpart⟩

theorem mem_rowLabels_of_measured {p : Partition} (hp : p ∈ measured settings sources k label) {c : Column}
    (hc : c ∈ p.table.columns) : label ∈ (Source.ofKind k sources).flatMap (Source.rowLabels settings) := by
  obtain ⟨s, hs, q, hq⟩ := exists_partition_of_measured hp hc
  exact List.mem_flatMap.2 ⟨s, hs, Source.mem_rowLabels_of_partition? hq⟩

theorem mem_rowLabels_of_record? {name : String} {r : Record}
    (h : ((ofSources settings sources).profile.get k).record? label name = some r) :
    label ∈ (Source.ofKind k sources).flatMap (Source.rowLabels settings) := by
  obtain ⟨p, hp, hr⟩ := exists_measured_of_record? h
  obtain ⟨c, hc, -⟩ := Partition.exists_column_of_record hr
  exact mem_rowLabels_of_measured hp (Partition.mem_dataColumns.1 hc).1

theorem labelCounts_of_record? {name : String} {r : Record}
    (h : ((ofSources settings sources).profile.get k).record? label name = some r) :
    ((ofSources settings sources).profile.get k).labelCounts[label]? =
      some (((Source.ofKind k sources).flatMap (Source.rowLabels settings)).count label) := by
  rw [labelCounts_ofSources]
  exact positive?_of_ne (List.count_pos_iff.2 (mem_rowLabels_of_record? h)).ne'

theorem exists_source_of_record?_replace (hpolicy : settings.policy = .replace) {name : String} {r : Record}
    (h : ((ofSources settings sources).profile.get k).record? label name = some r) :
    ∃ s ∈ Source.ofKind k sources, s.record? settings label name = some r ∧
      (s.rowLabels settings).count label = r.totalRows := by
  obtain ⟨p, hp, hr⟩ := exists_measured_of_record? h
  rw [measured, hpolicy] at hp
  obtain ⟨s, hs, hpart⟩ := List.mem_filterMap.1 hp
  have hcount := Source.rowCount_partition? settings s label
  rw [hpart, Option.map_some] at hcount
  refine ⟨s, hs, ?_, ?_⟩
  · rw [Source.record?, hpart]
    exact hr
  · rw [totalRows_of_attributes (length_columns_of_partition? hpart) hr]
    exact (eq_of_positive? hcount.symm).symm

theorem totalRows_of_record?_combine (hpolicy : settings.policy = .combine) {name : String} {r : Record}
    (h : ((ofSources settings sources).profile.get k).record? label name = some r) :
    ((Source.ofKind k sources).flatMap (Source.rowLabels settings)).count label = r.totalRows := by
  obtain ⟨p, hp, hr⟩ := exists_measured_of_record? h
  rw [measured, hpolicy] at hp
  rw [List.mem_singleton.1 hp] at hr
  rw [totalRows_of_attributes length_columns_stacked hr, rowCount_stacked]

variable (settings sources k label)

/-- Labels with records are counted, and a record accounts for all rows of its label: in the whole run when rows are
    pooled, and else in one of the sources. -/
theorem onWorkers_coherent (schedule : Schedule sources.length) :
    let found := (onWorkers settings sources schedule).profile.get k
    (label ∈ found.attributes → label ∈ found.labelCounts) ∧
      (∀ n, found.labelCounts[label]? = some n → 1 ≤ n) ∧
      ∀ name r, found.record? label name = some r →
        match settings.policy with
        | .combine => found.labelCounts[label]? = some (r.count + r.nullCount)
        | .replace => ∃ s ∈ Source.ofKind k sources, s.record? settings label name = some r ∧
            (s.rowLabels settings).count label = r.count + r.nullCount ∧
            ∃ n, found.labelCounts[label]? = some n ∧ r.count + r.nullCount ≤ n := by
  intro found
  have hfound : found = (ofSources settings sources).profile.get k :=
    congrArg (Profile.get · k) (profile_onWorkers settings sources schedule)
  rw [hfound]
  refine ⟨?_, ?_, ?_⟩
  · intro hmem
    obtain ⟨name, r, hr⟩ := Section.exists_record?_of_mem (occupied_ofSources settings sources k) hmem
    rw [Std.ExtTreeMap.mem_iff_isSome_getElem?, labelCounts_of_record? hr]
    rfl
  · intro n hn
    rw [labelCounts_ofSources] at hn
    rw [eq_of_positive? hn]
    exact (isSome_positive? _).1 (hn ▸ rfl)
  · intro name r hr
    have hcounts := labelCounts_of_record? hr
    cases hpolicy : settings.policy with
    | combine => rw [hcounts, totalRows_of_record?_combine hpolicy hr]; rfl
    | replace =>
      obtain ⟨s, hs, hrecord, hcount⟩ := exists_source_of_record?_replace hpolicy hr
      refine ⟨s, hs, hrecord, hcount, _, hcounts, ?_⟩
      rw [← Record.totalRows, ← hcount, List.count_flatMap]
      exact List.le_sum_of_mem (List.mem_map_of_mem hs)

end
end Report
end GraphProfile
