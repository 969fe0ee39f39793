import GraphProfile.Proofs.HeaderShapes
import GraphProfile.Proofs.Measured

set_option autoImplicit false

/-!
# The names of attributes

Attributes go by the name before the colon of their header. Where two data columns of a partition share that name, one
of them goes by its whole header. Files may write the header of one attribute in several ways, with a type or without;
pooled, these are columns of one partition, and the attribute falls apart into one name for each of them. So under both
policies the same attributes are there, but only where each is written in one way do they have the same names.
-/
namespace GraphProfile

namespace Header

def base (raw : String) : String := (parse raw).name

theorem base_of_not_mem {raw : String} (h : ':' ∉ raw.toList) : base raw = raw := by
  rw [base, parse_of_not_mem h]

theorem base_base (raw : String) : base (base raw) = base raw := by
  have hcases : base raw = raw ∨ base raw = String.ofList (raw.toList.takeWhile (· ≠ ':')) := by
    rw [base, parse]
    split
    · exact .inl rfl
    · split
      · exact .inl rfl
      · exact .inr rfl
  rcases hcases with hraw | hcut
  · rw [hraw, hraw]
  · rw [hcut]
    apply base_of_not_mem
    intro hc
    rw [String.toList_ofList] at hc
    have hne := List.mem_takeWhile_imp hc
    simp at hne

end Header

namespace Partition
open Header

theorem keyFor_eq (found : Attributes) (raw : String) : keyFor found raw = if base raw ∈ found then raw else base raw := by
  rw [keyFor, raw_parse]
  rfl

theorem base_keyFor (found : Attributes) (raw : String) : base (keyFor found raw) = base raw := by
  rw [keyFor_eq]
  split
  · rfl
  · exact base_base raw

section
variable (maxBins : ℕ) (cs : List Column)

def filed : Attributes := cs.foldl (addAttribute maxBins) ∅

theorem mem_filed_append_iff (c : Column) (name : String) :
    name ∈ filed maxBins (cs ++ [c]) ↔ keyFor (filed maxBins cs) c.name = name ∨ name ∈ filed maxBins cs := by
  rw [filed, List.foldl_concat, addAttribute_eq, Std.ExtTreeMap.mem_insert, Std.compare_eq_iff_eq]
  rfl

variable {maxBins cs}

theorem base_mem_of_mem_filed {name : String} (h : name ∈ filed maxBins cs) : ∃ c ∈ cs, base c.name = base name := by
  induction cs using List.reverseRecOn with
  | nil => exact absurd h Std.ExtTreeMap.not_mem_empty
  | append_singleton cs c ih =>
    rcases (mem_filed_append_iff maxBins cs c name).1 h with hnew | hold
    · exact ⟨c, by simp, by rw [← hnew, base_keyFor]⟩
    · obtain ⟨d, hd, hbase⟩ := ih hold
      exact ⟨d, List.mem_append_left _ hd, hbase⟩

theorem base_mem_filed {c : Column} (h : c ∈ cs) : base c.name ∈ filed maxBins cs := by
  induction cs using List.reverseRecOn with
  | nil => cases h
  | append_singleton cs d ih =>
    rw [mem_filed_append_iff]
    rcases List.mem_append.1 h with hold | hnew
    · exact .inr (ih hold)
    · rw [List.mem_singleton.1 hnew, keyFor_eq]
      by_cases hd : base d.name ∈ filed maxBins cs
      · exact .inr hd
      · rw [if_neg hd]
        exact .inl rfl

/-- A whole header is a name only beside another header of the same name. -/
theorem exists_other_of_mem_filed (hnames : (cs.map Column.name).Nodup) {name : String} (h : name ∈ filed maxBins cs)
    (hbase : base name ≠ name) :
    ∃ c ∈ cs, ∃ d ∈ cs, base c.name = base name ∧ base d.name = base name ∧ c.name ≠ d.name := by
  induction cs using List.reverseRecOn with
  | nil => exact absurd h Std.ExtTreeMap.not_mem_empty
  | append_singleton cs c ih =>
    rw [List.map_append, List.nodup_append] at hnames
    rcases (mem_filed_append_iff maxBins cs c name).1 h with hnew | hold
    · rw [keyFor_eq] at hnew
      by_cases hc : base c.name ∈ filed maxBins cs
      · rw [if_pos hc] at hnew
        obtain ⟨d, hd, hdbase⟩ := base_mem_of_mem_filed hc
        refine ⟨c, by simp, d, by simp [hd], by rw [hnew], by rw [hdbase, base_base, hnew], ?_⟩
        exact (hnames.2.2 d.name (List.mem_map_of_mem hd) c.name (by simp)).symm
      · rw [if_neg hc] at hnew
        exact absurd (by rw [← hnew, base_base]) hbase
    · obtain ⟨d, hd, e, he, hrest⟩ := ih hnames.1 hold
      exact ⟨d, List.mem_append_left _ hd, e, List.mem_append_left _ he, hrest⟩

end

def dataNames (p : Partition) : List String := p.dataColumns.map Column.name

theorem mem_dataNames {p : Partition} {raw : String} :
    raw ∈ p.dataNames ↔ raw ∈ p.table.names ∧ (parse raw).isStructural = false ∧ raw ≠ p.labelColumn := by
  rw [dataNames, Table.names, List.mem_map, List.mem_map]
  constructor
  · rintro ⟨c, hc, rfl⟩
    obtain ⟨hmem, hdata, hlabel⟩ := mem_dataColumns.1 hc
    exact ⟨⟨c, hmem, rfl⟩, hdata, hlabel⟩
  · rintro ⟨⟨c, hmem, rfl⟩, hdata, hlabel⟩
    exact ⟨c, mem_dataColumns.2 ⟨hmem, hdata, hlabel⟩, rfl⟩

section
variable {maxBins : ℕ} {p : Partition} {name : String}

theorem mem_attributes_iff_of_base (hname : base name = name) :
    name ∈ p.attributes maxBins ↔ ∃ raw ∈ p.dataNames, base raw = name := by
  constructor
  · intro h
    obtain ⟨c, hc, hbase⟩ := base_mem_of_mem_filed h
    exact ⟨c.name, List.mem_map_of_mem hc, hbase.trans hname⟩
  · rintro ⟨raw, hraw, rfl⟩
    obtain ⟨c, hc, rfl⟩ := List.mem_map.1 hraw
    exact base_mem_filed hc

theorem not_mem_attributes_of_one_header (hnames : p.table.names.Nodup) (hname : base name ≠ name)
    (hone : ∀ raw ∈ p.dataNames, ∀ other ∈ p.dataNames, base raw = base name → base other = base name → raw = other) :
    name ∉ p.attributes maxBins := by
  intro h
  have hdistinct : (p.dataColumns.map Column.name).Nodup := hnames.sublist (List.filter_sublist.map Column.name)
  obtain ⟨c, hc, d, hd, hcbase, hdbase, hne⟩ := exists_other_of_mem_filed hdistinct h hname
  exact hne (hone c.name (List.mem_map_of_mem hc) d.name (List.mem_map_of_mem hd) hcbase hdbase)

end
end Partition

namespace Report
open Header

/-- The headers of the data columns of all sources of a kind that have rows of the label. -/
def headers (settings : Settings) (sources : List Source) (k : Kind) (label : String) : List String :=
  (Source.partitions settings label (Source.ofKind k sources)).flatMap Partition.dataNames

def WrittenOnce (headers : List String) (name : String) : Prop :=
  ∀ raw ∈ headers, ∀ other ∈ headers, base raw = name → base other = name → raw = other

instance (headers : List String) (name : String) : Decidable (WrittenOnce headers name) :=
  inferInstanceAs (Decidable (∀ raw ∈ headers, ∀ other ∈ headers, _))

section
variable {settings : Settings} {sources : List Source} {k : Kind} {label name : String}

theorem mem_dataNames_stacked {raw : String} :
    raw ∈ (stacked settings sources k label).dataNames ↔ raw ∈ headers settings sources k label := by
  have hlabel := Source.labelColumn_partitions settings label k sources
  rw [Partition.mem_dataNames, stacked, Table.names_stack, Table.mem_allNames, headers, List.mem_flatMap]
  constructor
  · rintro ⟨⟨t, ht, hraw⟩, hdata, hne⟩
    obtain ⟨p, hp, rfl⟩ := List.mem_map.1 ht
    exact ⟨p, hp, Partition.mem_dataNames.2 ⟨hraw, hdata, hlabel p hp ▸ hne⟩⟩
  · rintro ⟨p, hp, hraw⟩
    obtain ⟨hmem, hdata, hne⟩ := Partition.mem_dataNames.1 hraw
    exact ⟨⟨p.table, List.mem_map_of_mem hp, hmem⟩, hdata, hlabel p hp ▸ hne⟩

theorem isSome_record?_replace :
    (((ofSources (settings.withPolicy .replace) sources).profile.get k).record? label name).isSome ↔
      ∃ p ∈ Source.partitions settings label (Source.ofKind k sources), name ∈ p.attributes settings.maxBins := by
  rw [record?_ofSources_replace, Source.filterMap_record?, List.getLast?_isSome, Ne, List.filterMap_eq_nil_iff]
  simp only [not_forall, Std.ExtTreeMap.mem_iff_isSome_getElem?, Option.isSome_iff_ne_none, exists_prop, Ne]

theorem isSome_record?_combine :
    (((ofSources (settings.withPolicy .combine) sources).profile.get k).record? label name).isSome ↔
      name ∈ (stacked settings sources k label).attributes settings.maxBins := by
  rw [record?_ofSources_combine, Std.ExtTreeMap.mem_iff_isSome_getElem?]

theorem isSome_record?_of_base (hname : base name = name) :
    (((ofSources (settings.withPolicy .replace) sources).profile.get k).record? label name).isSome ↔
      (((ofSources (settings.withPolicy .combine) sources).profile.get k).record? label name).isSome := by
  rw [isSome_record?_replace, isSome_record?_combine, Partition.mem_attributes_iff_of_base hname]
  simp only [Partition.mem_attributes_iff_of_base hname, mem_dataNames_stacked, headers, List.mem_flatMap]
  constructor
  · rintro ⟨p, hp, raw, hraw, hbase⟩
    exact ⟨raw, ⟨p, hp, hraw⟩, hbase⟩
  · rintro ⟨raw, ⟨p, hp, hraw⟩, hbase⟩
    exact ⟨p, hp, raw, hraw, hbase⟩

theorem nodup_names_partitions (hwell : ∀ s ∈ sources, ∀ t, s.table = .ok t → t.WellFormed) :
    ∀ p ∈ Source.partitions settings label (Source.ofKind k sources), p.table.names.Nodup := by
  intro p hp
  obtain ⟨s, hs, hpart⟩ := List.mem_filterMap.1 hp
  obtain ⟨t, ht⟩ := Source.exists_table_of_partition? hpart
  rw [Source.eq_of_partition? ht hpart, Table.names_ofLabel]
  exact (hwell s (List.mem_filter.1 hs).1 t ht).1

/-- No whole header is a name under either policy where the header is written in one way. -/
theorem isSome_record?_of_writtenOnce (hwell : ∀ s ∈ sources, ∀ t, s.table = .ok t → t.WellFormed)
    (hname : base name ≠ name) (hone : WrittenOnce (headers settings sources k label) (base name)) :
    (((ofSources (settings.withPolicy .replace) sources).profile.get k).record? label name).isSome ↔
      (((ofSources (settings.withPolicy .combine) sources).profile.get k).record? label name).isSome := by
  rw [isSome_record?_replace, isSome_record?_combine]
  refine iff_of_false ?_ ?_
  · rintro ⟨p, hp, hmem⟩
    refine Partition.not_mem_attributes_of_one_header (nodup_names_partitions hwell p hp) hname ?_ hmem
    intro raw hraw other hother
    exact hone raw (List.mem_flatMap.2 ⟨p, hp, hraw⟩) other (List.mem_flatMap.2 ⟨p, hp, hother⟩)
  · refine Partition.not_mem_attributes_of_one_header (Table.nodup_names_stack _) hname ?_
    intro raw hraw other hother
    exact hone raw (mem_dataNames_stacked.1 hraw) other (mem_dataNames_stacked.1 hother)

/-- Both policies count the same labels and know the same attributes by the names before the colon; and whatever an
    attribute goes by is the same if its header is written in one way. -/
theorem onWorkers_same_names (hwell : ∀ s ∈ sources, ∀ t, s.table = .ok t → t.WellFormed)
    (schedule other : Schedule sources.length) (k : Kind) :
    let replaced := (onWorkers (settings.withPolicy .replace) sources schedule).profile.get k
    let combined := (onWorkers (settings.withPolicy .combine) sources other).profile.get k
    replaced.labelCounts = combined.labelCounts ∧
      ∀ label name, base name = name ∨ WrittenOnce (headers settings sources k label) (base name) →
        ((replaced.record? label name).isSome ↔ (combined.record? label name).isSome) := by
  intro replaced combined
  have hreplaced : replaced = (ofSources (settings.withPolicy .replace) sources).profile.get k :=
    congrArg (Profile.get · k) (profile_onWorkers _ sources schedule)
  have hcombined : combined = (ofSources (settings.withPolicy .combine) sources).profile.get k :=
    congrArg (Profile.get · k) (profile_onWorkers _ sources other)
  rw [hreplaced, hcombined]
  refine ⟨?_, ?_⟩
  · apply Std.ExtTreeMap.ext_getElem?
    intro label
    rw [labelCounts_ofSources, labelCounts_ofSources]
    rfl
  · intro label name h
    by_cases hname : base name = name
    · exact isSome_record?_of_base hname
    · exact isSome_record?_of_writtenOnce hwell hname (h.resolve_left hname)

/-- One attribute has its type in both files, and one has it in the second file only. -/
theorem onWorkers_same_names_typed :
    let first : Table := ⟨[⟨":LABEL", none, [some (.text "A")]⟩, ⟨"age:int", some .int, [some (.int 7)]⟩,
      ⟨"name", none, [some (.text "x")]⟩], 1⟩
    let second : Table := ⟨[⟨"name:string", some .string, [some (.text "y"), none]⟩,
      ⟨":LABEL", none, [some (.text "A"), some (.text "B")]⟩, ⟨"age:int", some .int, [none, some (.int 8)]⟩], 2⟩
    let sources : List Source := [⟨"a", .vertex, .ok first⟩, ⟨"b", .vertex, .ok second⟩]
    let replaced := (onWorkers (Settings.standard.withPolicy .replace) sources (.inOrder 2)).profile.get .vertex
    let combined := (onWorkers (Settings.standard.withPolicy .combine) sources (.inOrder 2)).profile.get .vertex
    (∀ s ∈ sources, ∀ t, s.table = .ok t → t.WellFormed) ∧
      WrittenOnce (headers .standard sources .vertex "A") (base "age:int") ∧ base "name" = "name" ∧
      replaced.labelCounts = combined.labelCounts ∧
      ((replaced.record? "A" "age:int").isSome ↔ (combined.record? "A" "age:int").isSome) ∧
      ((replaced.record? "A" "name").isSome ↔ (combined.record? "A" "name").isSome) := by
  intro first second sources replaced combined
  have hwell : ∀ s ∈ sources, ∀ t, s.table = .ok t → t.WellFormed := by
    simp only [sources, List.forall_mem_cons]
    refine ⟨?_, ?_, by simp⟩ <;> intro t ht <;> cases ht <;> decide
  have hone : WrittenOnce (headers .standard sources .vertex "A") (base "age:int") := by decide +kernel
  have hname : base "name" = "name" := by decide +kernel
  obtain ⟨hcounts, hsame⟩ := @onWorkers_same_names .standard sources hwell (.inOrder 2) (.inOrder 2) .vertex
  exact ⟨hwell, hone, hname, hcounts, hsame "A" "age:int" (.inr hone), hsame "A" "name" (.inl hname)⟩

/-- Written with a type in one file and without in the other, an attribute has two names when the rows are pooled. -/
theorem onWorkers_names_apart :
    let first : Table := ⟨[⟨":LABEL", none, [some (.text "Person")]⟩, ⟨"name", none, [some (.text "x")]⟩], 1⟩
    let second : Table := ⟨[⟨":LABEL", none, [some (.text "Person")]⟩, ⟨"name:string", some .string, [some (.text "y")]⟩], 1⟩
    let sources : List Source := [⟨"a", .vertex, .ok first⟩, ⟨"b", .vertex, .ok second⟩]
    let found (policy : MergePolicy) := (onWorkers (Settings.standard.withPolicy policy) sources (.inOrder 2)).profile.get .vertex
    ((found .replace).record? "Person" "name:string").isSome = false ∧
      ((found .combine).record? "Person" "name:string").isSome = true := by
  intro first second sources found
  have hreplace : (((Source.ofKind .vertex sources).filterMap fun s =>
      s.record? .standard "Person" "name:string").getLast?).isSome = false := by decide +kernel
  have hcombine : (((stacked .standard sources .vertex "Person").attributes 10)["name:string"]?).isSome = true := by
    decide +kernel
  simp only [found, profile_onWorkers]
  rw [record?_ofSources_replace, record?_ofSources_combine]
  exact ⟨hreplace, hcombine⟩

end
end Report
end GraphProfile
