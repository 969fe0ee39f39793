import GraphProfile.Proofs.Views

set_option autoImplicit false

namespace GraphProfile

/-- The data columns and the label column, in their order. -/
def Table.withoutStructure (t : Table) (labelColumn : String) : List Column :=
  t.columns.filter fun c => !(Header.parse c.name).isStructural || c.name == labelColumn

/-- Sources that differ in structural columns only, and not in the label column if it is one. -/
structure Source.SameData (settings : Settings) (s s' : Source) : Prop where
  kind_eq : s.kind = s'.kind
  table_eq : (s.table.map fun t => (t.rowCount, t.withoutStructure (settings.labelColumns.get s.kind))) =
    s'.table.map fun t => (t.rowCount, t.withoutStructure (settings.labelColumns.get s'.kind))

namespace View

def data : View where
  shows labelColumn name := !(Header.parse name).isStructural || name == labelColumn
  same := Eq
  shows_data hdata _ := by simp [hdata]
  refl _ := rfl
  append := congrArg₂ _

theorem shows_label (labelColumn : String) : data.shows labelColumn labelColumn = true := by
  simp [data]

theorem eq_of_alike {c d : Column} (h : Column.Alike data c d) : c = d := by
  obtain ⟨hname, hdeclared, hvalues⟩ := h
  cases c
  cases d
  simp only at hname hdeclared
  rw [hname, hdeclared]
  exact congrArg _ hvalues

end View

namespace Table

variable {labelColumn : String} {t u : Table}

theorem alike_of_withoutStructure (hrows : t.rowCount = u.rowCount)
    (h : t.withoutStructure labelColumn = u.withoutStructure labelColumn) : Alike .data labelColumn t u := by
  refine ⟨hrows, ?_⟩
  change List.Forall₂ _ (t.withoutStructure labelColumn) (u.withoutStructure labelColumn)
  rw [h, List.forall₂_same]
  exact fun c _ => ⟨rfl, rfl, rfl⟩

theorem withoutStructure_take (t : Table) (labelColumn : String) (rows : List ℕ) :
    (t.take rows).withoutStructure labelColumn = (t.withoutStructure labelColumn).map (·.take rows) := by
  rw [withoutStructure, take, List.filter_map]
  rfl

/-- The rows of a label are found in the label column alone. -/
theorem alike_ofLabel (hrows : t.rowCount = u.rowCount)
    (h : t.withoutStructure labelColumn = u.withoutStructure labelColumn) (label : String) :
    Alike .data labelColumn (t.ofLabel labelColumn label) (u.ofLabel labelColumn label) := by
  have hlabels : cells labelColumn t = cells labelColumn u :=
    (alike_of_withoutStructure hrows h).cells (View.shows_label labelColumn)
  rw [ofLabel, ofLabel, hlabels]
  refine alike_of_withoutStructure rfl ?_
  rw [withoutStructure_take, withoutStructure_take, h]

end Table

namespace Source

variable {settings : Settings} {s s' : Source}

theorem SameData.cases (h : SameData settings s s') :
    (∃ e, s.table = .error e ∧ s'.table = .error e) ∨
      ∃ t u, s.table = .ok t ∧ s'.table = .ok u ∧ t.rowCount = u.rowCount ∧
        t.withoutStructure (settings.labelColumns.get s.kind) = u.withoutStructure (settings.labelColumns.get s.kind) := by
  have htable := h.table_eq
  rw [← h.kind_eq] at htable
  cases ht : s.table with
  | error e =>
    cases hu : s'.table with
    | error e' =>
      rw [ht, hu] at htable
      cases htable
      exact .inl ⟨e, rfl, rfl⟩
    | ok u =>
      rw [ht, hu] at htable
      cases htable
  | ok t =>
    cases hu : s'.table with
    | error e' =>
      rw [ht, hu] at htable
      cases htable
    | ok u =>
      rw [ht, hu] at htable
      obtain ⟨hrows, hcolumns⟩ := Prod.mk.inj (Except.ok.inj htable)
      exact .inr ⟨t, u, rfl, rfl, hrows, hcolumns⟩

theorem SameData.rowLabels_eq (h : SameData settings s s') : s.rowLabels settings = s'.rowLabels settings := by
  rcases h.cases with ⟨e, ht, hu⟩ | ⟨t, u, ht, hu, hrows, hcolumns⟩
  · rw [rowLabels, rowLabels, labelColumn?, labelColumn?, ht, hu]
    rfl
  · have hlabels := (Table.alike_of_withoutStructure hrows hcolumns).cells (View.shows_label _)
    rw [rowLabels_of_table ht, rowLabels_of_table hu, ← h.kind_eq]
    exact congrArg _ hlabels

theorem SameData.partition? (h : SameData settings s s') (label : String) :
    Option.Rel (Partition.Alike .data) (s.partition? settings label) (s'.partition? settings label) := by
  rcases h.cases with ⟨e, ht, hu⟩ | ⟨t, u, ht, hu, hrows, hcolumns⟩
  · rw [Source.partition?, Source.partition?, ht, hu]
    exact .none
  · exact partition?_of_alike h.kind_eq ht hu (Table.alike_ofLabel hrows hcolumns label)

end Source

namespace Report

theorem exists_column_of_record? {settings : Settings} {sources : List Source} {k : Kind} {label name : String} {r : Record}
    (h : ((ofSources settings sources).profile.get k).record? label name = some r) :
    ∃ p ∈ measured settings sources k label, ∃ c ∈ p.table.columns, (Header.parse c.name).isStructural = false ∧
      c.name ≠ settings.labelColumns.get k ∧ r = Partition.recordOf settings.maxBins c := by
  obtain ⟨p, hp, hr⟩ := exists_measured_of_record? h
  obtain ⟨c, hc, hrecord⟩ := Partition.exists_column_of_record hr
  obtain ⟨hmem, hdata, hlabel⟩ := Partition.mem_dataColumns.1 hc
  rw [labelColumn_measured settings sources k label p hp] at hlabel
  exact ⟨p, hp, c, hmem, hdata, hlabel, hrecord.symm⟩

/-- Structural columns leave no trace in a profile but for the labels, and no record is that of a structural column or
    of the label column. -/
theorem onWorkers_sameData {settings : Settings} {sources sources' : List Source}
    (h : List.Forall₂ (Source.SameData settings) sources sources') (schedule : Schedule sources.length)
    (other : Schedule sources'.length) :
    let profile := (onWorkers settings sources schedule).profile
    profile = (onWorkers settings sources' other).profile ∧
      ∀ k label name r, (profile.get k).record? label name = some r →
        ∃ p ∈ measured settings sources k label, ∃ c ∈ p.table.columns, (Header.parse c.name).isStructural = false ∧
          c.name ≠ settings.labelColumns.get k ∧ r = Partition.recordOf settings.maxBins c := by
  intro profile
  have hprofile : profile = (ofSources settings sources).profile := profile_onWorkers settings sources schedule
  refine ⟨?_, ?_⟩
  · rw [hprofile, profile_onWorkers settings sources' other]
    apply profile_eq_of_alike h fun _ _ hs => hs.kind_eq
    · exact fun _ _ hs => hs.partition?
    · exact fun _ _ hs => .of_eq hs.rowLabels_eq
    · intro k label p _ c _ d hcd
      rw [View.eq_of_alike hcd]
  · intro k label name r hr
    rw [hprofile] at hr
    exact exists_column_of_record? hr

/-- Structural columns are left out, added, moved and rewritten, and labels stand in a column that is not structural. -/
theorem onWorkers_sameData_moved :
    let settings := (Settings.standard.withLabelColumns "kind" "rel:TYPE").withPolicy .combine
    let kinds : Column := ⟨"kind", none, [some (.text "A"), some (.text "B")]⟩
    let ages : Column := ⟨"age:int", some .int, [some (.int 7), none]⟩
    let people : Table := ⟨[⟨":ID", none, [some (.int 1), some (.int 2)]⟩, kinds, ages], 2⟩
    let people' : Table := ⟨[kinds, ⟨"no:id(A)", none, [none, some (.text "x")]⟩, ages, ⟨":ID", none, [none, none]⟩], 2⟩
    let later : Table := ⟨[⟨"age", none, [some (.int 1)]⟩, ⟨"kind", none, [some (.text "A")]⟩, ⟨":x", none, [none]⟩], 1⟩
    let later' : Table := ⟨[⟨"age", none, [some (.int 1)]⟩, ⟨"kind", none, [some (.text "A")]⟩], 1⟩
    let sources : List Source := [⟨"a", .vertex, .ok people⟩, ⟨"b", .edge, .error (.internal "x")⟩, ⟨"c", .vertex, .ok later⟩]
    let sources' : List Source :=
      [⟨"a", .vertex, .ok people'⟩, ⟨"b", .edge, .error (.internal "x")⟩, ⟨"c", .vertex, .ok later'⟩]
    let backwards : Schedule 3 := ⟨[2, 1, 0, 0, 1, 2], by decide⟩
    let profile := (onWorkers settings sources (.inOrder 3)).profile
    List.Forall₂ (Source.SameData settings) sources sources' ∧ profile = (onWorkers settings sources' backwards).profile ∧
      ∀ k label name r, (profile.get k).record? label name = some r →
        ∃ p ∈ measured settings sources k label, ∃ c ∈ p.table.columns, (Header.parse c.name).isStructural = false ∧
          c.name ≠ settings.labelColumns.get k ∧ r = Partition.recordOf settings.maxBins c := by
  intro settings kinds ages people people' later later' sources sources' backwards profile
  have hpeople : people.withoutStructure "kind" = people'.withoutStructure "kind" := by decide +kernel
  have hlater : later.withoutStructure "kind" = later'.withoutStructure "kind" := by decide +kernel
  have h : List.Forall₂ (Source.SameData settings) sources sources' :=
    .cons ⟨rfl, congrArg Except.ok (Prod.ext rfl hpeople)⟩ (.cons ⟨rfl, rfl⟩
      (.cons ⟨rfl, congrArg Except.ok (Prod.ext rfl hlater)⟩ .nil))
  exact ⟨h, onWorkers_sameData h (.inOrder 3) backwards⟩

end Report
end GraphProfile
