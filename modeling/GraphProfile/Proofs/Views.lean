import GraphProfile.Proofs.Measured

set_option autoImplicit false

/-!
# Tables that look alike

A view of tables shows some of their columns, the data columns among them, and takes some lists of cells for the same.
Tables look alike in a view when the columns it shows are the same but for cells that it does not tell apart. Stacks of
tables that look alike look alike, so sources whose partitions look alike have the same profile, as long as the records
of columns do not tell their cells apart either.
-/
namespace GraphProfile

section
variable {α β : Type} {R : α → β → Prop} {l : List α} {l' : List β} (h : List.Forall₂ R l l')
include h

theorem rel_find? {p : α → Bool} {q : β → Bool} (hpq : ∀ a b, R a b → p a = q b) :
    Option.Rel R (l.find? p) (l'.find? q) := by
  induction h with
  | nil => exact .none
  | cons hab _ ih =>
    rw [List.find?_cons, List.find?_cons, ← hpq _ _ hab]
    split
    · exact .some hab
    · exact ih

theorem map_eq_of_forall₂ {γ : Type} {f : α → γ} {g : β → γ} (hfg : ∀ a ∈ l, ∀ b, R a b → f a = g b) :
    l.map f = l'.map g := by
  induction h with
  | nil => rfl
  | cons hab _ ih =>
    rw [List.map_cons, List.map_cons, hfg _ List.mem_cons_self _ hab,
      ih fun a ha b hb => hfg a (List.mem_cons_of_mem _ ha) b hb]

theorem flatMap_of_forall₂ {γ : Type} {S : List γ → List γ → Prop} (hnil : S [] [])
    (happend : ∀ {a b c d : List γ}, S a b → S c d → S (a ++ c) (b ++ d)) {f : α → List γ} {g : β → List γ}
    (hfg : ∀ a b, R a b → S (f a) (g b)) : S (l.flatMap f) (l'.flatMap g) := by
  induction h with
  | nil => exact hnil
  | cons hab _ ih =>
    rw [List.flatMap_cons, List.flatMap_cons]
    exact happend (hfg _ _ hab) ih

end

theorem filter_eraseDups (p : String → Bool) (names : List String) :
    names.eraseDups.filter p = (names.filter p).eraseDups := by
  match names with
  | [] => rfl
  | name :: names =>
    rw [List.eraseDups_cons, List.filter_cons, filter_eraseDups p (names.filter _), List.filter_comm, List.filter_cons]
    split
    · rw [List.eraseDups_cons]
    · rename_i hp
      -- the name is not among those that are left
      rw [List.filter_eq_self.2]
      intro other hother
      have hne : other ≠ name := fun he => hp (he ▸ (List.mem_filter.1 hother).2)
      simpa using hne
termination_by names.length
decreasing_by exact Nat.lt_succ_of_le (List.length_filter_le _ _)

structure View where
  /-- Whether a column is shown where labels stand in another one. -/
  shows : (labelColumn name : String) → Bool
  same : List (Option Value) → List (Option Value) → Prop
  shows_data : ∀ {labelColumn name : String}, (Header.parse name).isStructural = false → name ≠ labelColumn →
    shows labelColumn name = true
  refl : ∀ cells, same cells cells
  append : ∀ {a b c d : List (Option Value)}, same a b → same c d → same (a ++ c) (b ++ d)

structure Column.Alike (v : View) (c d : Column) : Prop where
  name_eq : c.name = d.name
  declared_eq : c.declared = d.declared
  values : v.same c.values d.values

namespace Table

def shown (v : View) (labelColumn : String) (t : Table) : List Column :=
  t.columns.filter fun c => v.shows labelColumn c.name

structure Alike (v : View) (labelColumn : String) (t u : Table) : Prop where
  rowCount_eq : t.rowCount = u.rowCount
  shown : List.Forall₂ (Column.Alike v) (t.shown v labelColumn) (u.shown v labelColumn)

theorem column?_shown {v : View} {labelColumn name : String} (hname : v.shows labelColumn name = true) (t : Table) :
    t.column? name = (t.shown v labelColumn).find? (·.name == name) := by
  rw [column?, shown, List.find?_filter]
  apply List.find?_congr
  intro c _
  by_cases h : c.name = name
  · simp [h, hname]
  · simp [h]

section
variable {v : View} {labelColumn : String} {t u : Table} (h : Alike v labelColumn t u)
include h

theorem Alike.names_eq : t.names.filter (v.shows labelColumn) = u.names.filter (v.shows labelColumn) := by
  have hnames := map_eq_of_forall₂ h.shown (f := Column.name) (g := Column.name) fun _ _ _ hcd => hcd.name_eq
  rw [names, names, List.filter_map, List.filter_map]
  exact hnames

variable {name : String} (hname : v.shows labelColumn name = true)
include hname

theorem Alike.column? : Option.Rel (Column.Alike v) (t.column? name) (u.column? name) := by
  rw [column?_shown hname, column?_shown hname]
  exact rel_find? h.shown fun c d hcd => by rw [hcd.name_eq]

theorem Alike.declared_eq : (t.column? name).bind Column.declared = (u.column? name).bind Column.declared := by
  have hcolumn := h.column? hname
  generalize t.column? name = c at hcolumn
  generalize u.column? name = d at hcolumn
  cases hcolumn with
  | none => rfl
  | some hcd => exact hcd.declared_eq

theorem Alike.cells : v.same (cells name t) (cells name u) := by
  have hcolumn := h.column? hname
  rw [Table.cells, Table.cells, h.rowCount_eq]
  generalize t.column? name = c at hcolumn
  generalize u.column? name = d at hcolumn
  cases hcolumn with
  | none => exact v.refl _
  | some hcd => exact hcd.values

end

section
variable {v : View} {labelColumn : String} {tables tables' : List Table}
  (h : List.Forall₂ (Alike v labelColumn) tables tables')
include h

theorem allNames_of_alike :
    (allNames tables).filter (v.shows labelColumn) = (allNames tables').filter (v.shows labelColumn) := by
  rw [allNames, allNames, filter_eraseDups, filter_eraseDups, List.filter_flatMap, List.filter_flatMap]
  exact congrArg List.eraseDups (flatMap_of_forall₂ h rfl (congrArg₂ (· ++ ·)) fun _ _ htu => htu.names_eq)

theorem firstDeclared_of_alike {name : String} (hname : v.shows labelColumn name = true) :
    firstDeclared tables name = firstDeclared tables' name := by
  induction h with
  | nil => rfl
  | cons htu _ ih =>
    rw [firstDeclared] at ih ⊢
    rw [List.findSome?_cons, firstDeclared, List.findSome?_cons, htu.declared_eq hname, ih]
    rfl

theorem alike_stack : Alike v labelColumn (stack tables) (stack tables') := by
  have hshown : ∀ tables : List Table, (stack tables).shown v labelColumn =
      ((allNames tables).filter (v.shows labelColumn)).map fun name =>
        ⟨name, firstDeclared tables name, tables.flatMap (cells name)⟩ := by
    intro tables
    rw [shown, stack, List.filter_map]
    rfl
  refine ⟨?_, ?_⟩
  · rw [rowCount_stack, rowCount_stack, map_eq_of_forall₂ h fun _ _ _ htu => htu.rowCount_eq]
  · rw [hshown, hshown, allNames_of_alike h, List.forall₂_map_left_iff, List.forall₂_map_right_iff, List.forall₂_same]
    intro name hname
    have hshows := (List.mem_filter.1 hname).2
    exact ⟨rfl, firstDeclared_of_alike h hshows,
      flatMap_of_forall₂ h (v.refl []) v.append fun _ _ htu => htu.cells hshows⟩

end
end Table

namespace Partition

structure Alike (v : View) (p q : Partition) : Prop where
  labelColumn_eq : p.labelColumn = q.labelColumn
  table : Table.Alike v p.labelColumn p.table q.table

theorem dataColumns_shown (v : View) (p : Partition) :
    p.dataColumns = (p.table.shown v p.labelColumn).filter p.isData := by
  rw [dataColumns, Table.shown, List.filter_filter]
  apply List.filter_congr
  intro c _
  by_cases hdata : p.isData c = true
  · rw [hdata]
    rw [isData, Bool.and_eq_true, Bool.not_eq_true', bne_iff_ne] at hdata
    rw [v.shows_data hdata.1 hdata.2]
    rfl
  · rw [Bool.not_eq_true] at hdata
    rw [hdata]
    rfl

theorem attributes_eq_of_alike {v : View} {p q : Partition} {maxBins : ℕ} (h : Alike v p q)
    (hrecord : ∀ c ∈ p.dataColumns, ∀ d, Column.Alike v c d → recordOf maxBins c = recordOf maxBins d) :
    p.attributes maxBins = q.attributes maxBins := by
  have hcolumns : List.Forall₂ (Column.Alike v) p.dataColumns q.dataColumns := by
    rw [dataColumns_shown v p, dataColumns_shown v q, ← h.labelColumn_eq]
    refine List.rel_filter ?_ h.table.shown
    intro c d hcd
    simp only [isData, hcd.name_eq, h.labelColumn_eq]
  exact attributes_eq_of_records (map_eq_of_forall₂ hcolumns fun c hc d hcd =>
    Prod.ext hcd.name_eq (hrecord c hc d hcd))

theorem recordOf_congr {maxBins : ℕ} {c d : Column} (hname : c.name = d.name) (hdeclared : c.declared = d.declared)
    (hlength : c.length = d.length)
    (h : classify ((c.declared.or (Header.parse c.name).declared).or c.declared) c.values =
      classify ((c.declared.or (Header.parse c.name).declared).or c.declared) d.values) :
    recordOf maxBins c = recordOf maxBins d := by
  rw [recordOf, recordOf, Record.ofColumn, Record.ofColumn, h, hlength, ← hname, ← hdeclared]

theorem attributes_eq_of_forall₂ {maxBins : ℕ} {p q : Partition} (hlabels : p.labelColumn = q.labelColumn)
    (h : List.Forall₂ (fun c d => c.name = d.name ∧ (p.isData c → recordOf maxBins c = recordOf maxBins d))
      p.table.columns q.table.columns) : p.attributes maxBins = q.attributes maxBins := by
  have hdata := List.rel_filter (p := p.isData) (q := q.isData) (fun c d hcd => by
    simp only [isData, hcd.1, hlabels]) h
  refine attributes_eq_of_records (map_eq_of_forall₂ hdata fun c hc d hcd => ?_)
  exact Prod.ext hcd.1 (hcd.2 (List.mem_filter.1 hc).2)

/-- Attributes are known from the labels of the rows and from how what stands beside one of them is classified. -/
theorem attributes_ofLabel_congr (maxBins : ℕ) {labelColumn label : String} {t u : Table}
    (ht : ∀ c ∈ t.columns, c.length = t.rowCount) (hu : ∀ c ∈ u.columns, c.length = u.rowCount)
    (hlabels : (Table.cells labelColumn t).map (Option.map Value.display) =
      (Table.cells labelColumn u).map (Option.map Value.display))
    (h : List.Forall₂ (fun c d => c.name = d.name ∧ c.declared = d.declared ∧
      ((Header.parse c.name).isStructural = false → c.name ≠ labelColumn →
        classify ((c.declared.or (Header.parse c.name).declared).or c.declared)
            (Table.beside label (Table.cells labelColumn t) c.values) =
          classify ((c.declared.or (Header.parse c.name).declared).or c.declared)
            (Table.beside label (Table.cells labelColumn u) d.values))) t.columns u.columns) :
    (Partition.mk label labelColumn (t.ofLabel labelColumn label)).attributes maxBins =
      (Partition.mk label labelColumn (u.ofLabel labelColumn label)).attributes maxBins := by
  have hrows := Table.rowsReading_congr hlabels label
  have hleft := (List.forall₂_and_left _ _).2 ⟨ht, h⟩
  have hboth := ((List.forall₂_and_left _ _).2 ⟨hu, hleft.flip⟩).flip
  refine attributes_eq_of_forall₂ (by rfl) ?_
  change List.Forall₂ _ (t.columns.map _) (u.columns.map _)
  rw [List.forall₂_map_left_iff, List.forall₂_map_right_iff]
  refine hboth.imp ?_
  rintro c d ⟨hd, hc, hname, hdeclared, hclass⟩
  refine ⟨hname, fun hdata => ?_⟩
  rw [isData, Bool.and_eq_true, Bool.not_eq_true', bne_iff_ne] at hdata
  refine recordOf_congr hname hdeclared ?_ ?_
  · rw [Column.length, Column.length, Table.values_take, Table.values_take, hrows, List.length_map, List.length_map]
  · rw [Table.values_take, Table.values_take, Table.map_rowsReading, Table.map_rowsReading]
    · exact hclass hdata.1 hdata.2
    · exact hd.trans (Table.length_cells hu labelColumn).symm
    · exact hc.trans (Table.length_cells ht labelColumn).symm

end Partition

theorem Source.partition?_of_alike {v : View} {settings : Settings} {s s' : Source} (hkind : s.kind = s'.kind) {t u : Table}
    (ht : s.table = .ok t) (hu : s'.table = .ok u) {label : String}
    (h : Table.Alike v (settings.labelColumns.get s.kind) (t.ofLabel (settings.labelColumns.get s.kind) label)
      (u.ofLabel (settings.labelColumns.get s.kind) label)) :
    Option.Rel (Partition.Alike v) (s.partition? settings label) (s'.partition? settings label) := by
  rw [partition?_of_table ht, partition?_of_table hu, ← hkind, Table.ofLabel?, Table.ofLabel?, h.rowCount_eq]
  split
  · exact .none
  · exact .some ⟨rfl, h⟩

namespace Report

section
variable {v : View} {R : Source → Source → Prop} {settings : Settings} {sources sources' : List Source}
  (h : List.Forall₂ R sources sources') (hkind : ∀ s s', R s s' → s.kind = s'.kind)
include h hkind

theorem forall₂_ofKind (k : Kind) : List.Forall₂ R (Source.ofKind k sources) (Source.ofKind k sources') := by
  refine List.rel_filter ?_ h
  intro s s' hs
  simp only [hkind s s' hs]

variable (hpartition : ∀ s s', R s s' → ∀ label,
  Option.Rel (Partition.Alike v) (s.partition? settings label) (s'.partition? settings label))
include hpartition

theorem alike_partitions (k : Kind) (label : String) :
    List.Forall₂ (Partition.Alike v) (Source.partitions settings label (Source.ofKind k sources))
      (Source.partitions settings label (Source.ofKind k sources')) :=
  List.rel_filterMap (fun s s' hs => hpartition s s' hs label) (forall₂_ofKind h hkind k)

theorem alike_measured (k : Kind) (label : String) :
    List.Forall₂ (Partition.Alike v) (measured settings sources k label) (measured settings sources' k label) := by
  have hparts := alike_partitions h hkind hpartition k label
  rw [measured, measured]
  cases settings.policy with
  | replace => exact hparts
  | combine =>
    have htables := (List.forall₂_and_left _ _).2
      ⟨Source.labelColumn_partitions settings label k sources, hparts⟩
    refine .cons ⟨rfl, Table.alike_stack ?_⟩ .nil
    rw [List.forall₂_map_left_iff, List.forall₂_map_right_iff]
    refine htables.imp ?_
    rintro p q ⟨hp, hpq⟩
    change Table.Alike v (settings.labelColumns.get k) p.table q.table
    rw [← hp]
    exact hpq.table

/-- Sources whose partitions look alike have the same profile, where no measured column tells alike cells apart. -/
theorem profile_eq_of_alike (hlabels : ∀ s s', R s s' → (s.rowLabels settings).Perm (s'.rowLabels settings))
    (hrecord : ∀ k label, ∀ p ∈ measured settings sources k label, ∀ c ∈ p.dataColumns, ∀ d, Column.Alike v c d →
      Partition.recordOf settings.maxBins c = Partition.recordOf settings.maxBins d) :
    (ofSources settings sources).profile = (ofSources settings sources').profile := by
  apply profile_eq_of_measured
  · intro k
    exact flatMap_of_forall₂ (forall₂_ofKind h hkind k) .nil List.Perm.append hlabels
  · intro k label
    have hmeasured := (List.forall₂_and_left _ _).2
      ⟨fun p hp => hrecord k label p hp, alike_measured h hkind hpartition k label⟩
    exact hmeasured.imp fun p q hpq => Partition.attributes_eq_of_alike hpq.2 hpq.1

end
end Report
end GraphProfile
