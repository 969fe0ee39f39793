import GraphProfile.Proofs.Partitions
import GraphProfile.Table.Stack
import Mathlib

set_option autoImplicit false

namespace GraphProfile.Table

/-- Names and declared types of the columns, in their order. -/
def heading (t : Table) : List (String × Option ValueType) := t.columns.map fun c => (c.name, c.declared)

theorem names_eq (t : Table) : t.names = t.heading.map Prod.fst := by
  rw [names, heading, List.map_map]
  rfl

theorem column?_eq_some {t : Table} {name : String} {c : Column} (h : t.column? name = some c) :
    c ∈ t.columns ∧ c.name = name :=
  ⟨List.mem_of_find?_eq_some h, by simpa using List.find?_some h⟩

theorem column?_eq_none_iff {t : Table} {name : String} : t.column? name = none ↔ name ∉ t.names := by
  rw [column?, List.find?_eq_none, names, List.mem_map]
  constructor
  · rintro h ⟨c, hc, rfl⟩
    exact h c hc (beq_self_eq_true c.name)
  · intro h c hc heq
    exact h ⟨c, hc, eq_of_beq heq⟩

theorem column?_of_mem {t : Table} (ht : t.names.Nodup) {c : Column} (hc : c ∈ t.columns) :
    t.column? c.name = some c := by
  cases h : t.column? c.name with
  | none => exact absurd (List.mem_map_of_mem hc) (column?_eq_none_iff.1 h)
  | some d =>
    obtain ⟨hd, hname⟩ := column?_eq_some h
    rw [List.inj_on_of_nodup_map ht hd hc hname]

theorem cells_of_mem {t : Table} (ht : t.names.Nodup) {c : Column} (hc : c ∈ t.columns) :
    cells c.name t = c.values := by
  rw [cells, column?_of_mem ht hc]

theorem length_cells {t : Table} (ht : ∀ c ∈ t.columns, c.length = t.rowCount) (name : String) :
    (cells name t).length = t.rowCount := by
  rw [cells]
  cases h : t.column? name with
  | none => exact List.length_replicate
  | some c => exact ht c (column?_eq_some h).1

theorem eq_of_cells {t u : Table} (ht : t.names.Nodup) (hheading : t.heading = u.heading)
    (hrows : t.rowCount = u.rowCount) (hcells : ∀ name ∈ t.names, cells name t = cells name u) : t = u := by
  have hnames : t.names = u.names := by rw [names_eq, names_eq, hheading]
  have hcolumns : t.columns = u.columns := by
    apply List.ext_getElem?
    intro i
    have hi := congrArg (fun l : List (String × Option ValueType) => l[i]?) hheading
    simp only [heading, List.getElem?_map] at hi
    cases hc : t.columns[i]? with
    | none =>
      rw [hc, Option.map_none] at hi
      exact (Option.map_eq_none_iff.1 hi.symm).symm
    | some c =>
      rw [hc, Option.map_some] at hi
      obtain ⟨d, hd, hcd⟩ := Option.map_eq_some_iff.1 hi.symm
      obtain ⟨hname, hdeclared⟩ := Prod.mk.inj hcd
      have hcm := List.mem_of_getElem? hc
      have hvalues := hcells c.name (List.mem_map_of_mem hcm)
      rw [cells_of_mem ht hcm, ← hname, cells_of_mem (hnames ▸ ht) (List.mem_of_getElem? hd)] at hvalues
      rw [hd]
      cases c
      cases d
      simp only at hname hdeclared hvalues
      rw [hname, hdeclared, hvalues]
  cases t
  cases u
  simp only at hcolumns hrows
  rw [hcolumns, hrows]

theorem eraseDups_of_nodup {names : List String} (h : names.Nodup) : names.eraseDups = names := by
  induction names with
  | nil => rfl
  | cons name names ih =>
    rw [List.nodup_cons] at h
    have hother : (names.filter fun other => !other == name) = names := by
      rw [List.filter_eq_self]
      intro other hother
      simpa using fun he : other = name => h.1 (he ▸ hother)
    rw [List.eraseDups_cons, hother, ih h.2]

theorem eraseDups_append_of_subset {names more : List String} (h : ∀ name ∈ more, name ∈ names) :
    (names ++ more).eraseDups = names.eraseDups := by
  have hnone : more.removeAll names = [] := by
    rw [List.removeAll, List.filter_eq_nil_iff]
    intro name hname
    simpa using h name hname
  rw [List.eraseDups_append, hnone, List.eraseDups_nil, List.append_nil]

theorem rowCount_stack (tables : List Table) : (stack tables).rowCount = (tables.map rowCount).sum := by
  rw [stack, List.sum, List.foldr_map]

theorem declared_column? (t : Table) (name : String) :
    (t.column? name).bind Column.declared = (t.heading.find? fun entry => entry.1 == name).bind Prod.snd := by
  rw [column?, heading, List.find?_map, Option.bind_map]
  rfl

theorem nodup_eraseDups (names : List String) : names.eraseDups.Nodup := by
  cases names with
  | nil => exact List.nodup_nil
  | cons name names =>
    rw [List.eraseDups_cons, List.nodup_cons]
    refine ⟨?_, nodup_eraseDups _⟩
    simp [List.mem_eraseDups]
termination_by names.length
decreasing_by simpa using Nat.lt_succ_of_le (List.length_filter_le _ names)

theorem names_stack (tables : List Table) : (stack tables).names = allNames tables := by
  rw [names, stack, List.map_map]
  exact List.map_id _

theorem mem_allNames {tables : List Table} {name : String} :
    name ∈ allNames tables ↔ ∃ t ∈ tables, name ∈ t.names := by
  rw [allNames, List.mem_eraseDups, List.mem_flatMap]

theorem column?_stack_eq_none_iff {tables : List Table} {name : String} :
    (stack tables).column? name = none ↔ ∀ t ∈ tables, t.column? name = none := by
  simp only [column?_eq_none_iff, names_stack, mem_allNames, not_exists, not_and]

theorem mem_columns_stack {tables : List Table} {c : Column} (hc : c ∈ (stack tables).columns) :
    c.declared = firstDeclared tables c.name ∧ c.values = tables.flatMap (cells c.name) := by
  obtain ⟨name, -, rfl⟩ := List.mem_map.1 hc
  exact ⟨rfl, rfl⟩

section
variable {common : List (String × Option ValueType)} (hcommon : (common.map Prod.fst).Nodup) {tables : List Table}
  (h : ∀ t ∈ tables, t.heading = common) (hne : tables ≠ [])
include hcommon h hne

theorem allNames_of_heading : allNames tables = common.map Prod.fst := by
  cases tables with
  | nil => exact absurd rfl hne
  | cons t tables =>
    have hnames : ∀ u ∈ t :: tables, u.names = common.map Prod.fst := by
      intro u hu
      rw [names_eq, h u hu]
    rw [allNames, List.flatMap_cons, eraseDups_append_of_subset, hnames t List.mem_cons_self, eraseDups_of_nodup hcommon]
    intro name hname
    obtain ⟨u, hu, hname⟩ := List.mem_flatMap.1 hname
    rwa [hnames t List.mem_cons_self, ← hnames u (List.mem_cons_of_mem t hu)]

theorem firstDeclared_of_heading {entry : String × Option ValueType} (hentry : entry ∈ common) :
    firstDeclared tables entry.1 = entry.2 := by
  have hfind : (common.find? fun other => other.1 == entry.1) = some entry := by
    cases hc : common.find? fun other => other.1 == entry.1 with
    | none => simpa using List.find?_eq_none.1 hc entry hentry
    | some other =>
      have hname : other.1 = entry.1 := by simpa using List.find?_some hc
      rw [List.inj_on_of_nodup_map hcommon (List.mem_of_find?_eq_some hc) hentry hname]
  have hdeclared : ∀ t ∈ tables, (t.column? entry.1).bind Column.declared = entry.2 := by
    intro t ht
    rw [declared_column?, h t ht, hfind, Option.bind_some]
  cases tables with
  | nil => exact absurd rfl hne
  | cons t tables =>
    rw [firstDeclared, List.findSome?_cons, hdeclared t List.mem_cons_self]
    cases htype : entry.2 with
    | some type => rfl
    | none =>
      simp only
      rw [List.findSome?_eq_none_iff]
      intro u hu
      rw [hdeclared u (List.mem_cons_of_mem t hu), htype]

theorem heading_stack : (stack tables).heading = common := by
  rw [heading, stack, allNames_of_heading hcommon h hne, List.map_map, List.map_map]
  nth_rewrite 2 [← List.map_id common]
  apply List.map_congr_left
  intro entry hentry
  simp only [Function.comp_apply, firstDeclared_of_heading hcommon h hne hentry, id_eq]

end

theorem replicate_sum (tables : List Table) :
    List.replicate (tables.map rowCount).sum (none : Option Value) =
      tables.flatMap fun t => List.replicate t.rowCount none := by
  induction tables with
  | nil => rfl
  | cons t tables ih => rw [List.map_cons, List.sum_cons, List.replicate_add, ih, List.flatMap_cons]

theorem cells_stack {tables : List Table} (name : String) : cells name (stack tables) = tables.flatMap (cells name) := by
  cases hc : (stack tables).column? name with
  | some c =>
    obtain ⟨hmem, rfl⟩ := column?_eq_some hc
    rw [cells, hc]
    exact (mem_columns_stack hmem).2
  | none =>
    -- without the name in any table all cells are empty
    have hnone : ∀ t ∈ tables, cells name t = List.replicate t.rowCount none := by
      intro t ht
      rw [cells, column?_stack_eq_none_iff.1 hc t ht]
    rw [List.flatMap_congr hnone, cells, hc, rowCount_stack]
    exact replicate_sum tables

theorem nodup_names_stack (tables : List Table) : (stack tables).names.Nodup := by
  rw [names_stack]
  exact nodup_eraseDups _

theorem length_columns_stack {tables : List Table} (h : ∀ t ∈ tables, ∀ c ∈ t.columns, c.length = t.rowCount) :
    ∀ c ∈ (stack tables).columns, c.length = (stack tables).rowCount := by
  intro c hc
  have hlength : ∀ t ∈ tables, (cells c.name t).length = t.rowCount := fun t ht => length_cells (h t ht) c.name
  rw [Column.length, (mem_columns_stack hc).2, List.length_flatMap, rowCount_stack,
    List.map_congr_left hlength]

theorem wellFormed_stack {tables : List Table} (h : ∀ t ∈ tables, t.WellFormed) : (stack tables).WellFormed :=
  ⟨nodup_names_stack tables, length_columns_stack fun t ht => (h t ht).2⟩

theorem stack_singleton {t : Table} (ht : t.names.Nodup) : stack [t] = t := by
  have hheading : (stack [t]).heading = t.heading := heading_stack (names_eq t ▸ ht) (by simp) (by simp)
  have hnames : (stack [t]).names = t.names := by rw [names_eq, names_eq, hheading]
  apply eq_of_cells (hnames ▸ ht) hheading
  · rw [rowCount_stack]
    exact Nat.add_zero _
  · intro name _
    rw [cells_stack, List.flatMap_singleton]

/-- The cells that stand beside a cell which reads as the label. -/
def beside (label : String) (labels values : List (Option Value)) : List (Option Value) :=
  ((labels.zip values).filter fun pair => reads label pair.1).map Prod.snd

theorem columns_take (t : Table) (rows : List Nat) : (t.take rows).columns = t.columns.map (·.take rows) := rfl

theorem values_take (c : Column) (rows : List Nat) : (c.take rows).values = rows.map fun i => c.values[i]?.join := by
  simp [Column.take]

theorem heading_take (t : Table) (rows : List Nat) : (t.take rows).heading = t.heading := by
  rw [heading, take, List.map_map]
  rfl

theorem names_take (t : Table) (rows : List Nat) : (t.take rows).names = t.names := by
  rw [names_eq, names_eq, heading_take]

theorem column?_take (t : Table) (rows : List Nat) (name : String) :
    (t.take rows).column? name = (t.column? name).map (·.take rows) := by
  rw [column?, take, List.find?_map, column?]
  rfl

/-- Where there is no such column nothing is taken, and all rows are without a value all the same. -/
theorem cells_take (t : Table) (rows : List Nat) (name : String) :
    cells name (t.take rows) = rows.map fun i => (cells name t)[i]?.join := by
  rw [cells, column?_take, cells]
  cases t.column? name with
  | some c => simp [Column.take]
  | none =>
    symm
    refine List.eq_replicate_iff.2 ⟨List.length_map _, ?_⟩
    intro cell hcell
    obtain ⟨i, -, rfl⟩ := List.mem_map.1 hcell
    rw [List.getElem?_replicate]
    split <;> rfl

theorem map_rowsReading_from (label : String) {labels values : List (Option Value)} (n : Nat)
    (before : List (Option Value)) (hn : before.length = n) (h : values.length = labels.length) :
    ((rowsReading label (labels.zipIdx n)).map fun i => (before ++ values)[i]?.join) = beside label labels values := by
  induction labels generalizing n before values with
  | nil => rfl
  | cons cell labels ih =>
    cases values with
    | nil => cases h
    | cons value values =>
      have hrest := ih (n + 1) (before ++ [value]) (by simp [hn]) (by simpa using h)
      rw [List.append_assoc, List.singleton_append] at hrest
      have hhere : (before ++ value :: values)[n]?.join = value := by
        rw [← hn, List.getElem?_append_right (Nat.le_refl _), Nat.sub_self]
        rfl
      rw [List.zipIdx_cons, rowsReading, beside, List.zip_cons_cons, List.filter_cons, List.filter_cons]
      by_cases hreads : reads label cell
      · rw [if_pos hreads, if_pos hreads, List.map_cons, List.map_cons, List.map_cons, hhere]
        exact congrArg _ hrest
      · rw [if_neg hreads, if_neg hreads]
        exact hrest

theorem map_rowsReading (label : String) {labels values : List (Option Value)} (h : values.length = labels.length) :
    ((rowsReading label labels.zipIdx).map fun i => values[i]?.join) = beside label labels values :=
  map_rowsReading_from label 0 [] rfl h

theorem beside_map {α : Type} (label : String) (rows : List α) (labels values : α → Option Value) :
    beside label (rows.map labels) (rows.map values) = (rows.filter fun row => reads label (labels row)).map values := by
  rw [beside, List.zip_map', List.filter_map, List.map_map]
  rfl

theorem beside_append (label : String) {labels values : List (Option Value)} (h : labels.length = values.length)
    (moreLabels moreValues : List (Option Value)) :
    beside label (labels ++ moreLabels) (values ++ moreValues) =
      beside label labels values ++ beside label moreLabels moreValues := by
  rw [beside, List.zip_append h, List.filter_append, List.map_append]
  rfl

theorem beside_flatMap {α : Type} (label : String) {f g : α → List (Option Value)} {l : List α}
    (h : ∀ a ∈ l, (f a).length = (g a).length) :
    beside label (l.flatMap f) (l.flatMap g) = l.flatMap fun a => beside label (f a) (g a) := by
  induction l with
  | nil => rfl
  | cons a l ih =>
    rw [List.flatMap_cons, List.flatMap_cons, List.flatMap_cons, ← ih fun b hb => h b (List.mem_cons_of_mem a hb),
      beside_append label (h a List.mem_cons_self)]

def ofLabel (t : Table) (labelColumn label : String) : Table :=
  t.take (rowsReading label (cells labelColumn t).zipIdx)

theorem names_ofLabel (t : Table) (labelColumn label : String) : (t.ofLabel labelColumn label).names = t.names :=
  names_take t _

theorem rowCount_ofLabel (t : Table) (labelColumn label : String) :
    (t.ofLabel labelColumn label).rowCount =
      ((cells labelColumn t).filterMap (Option.map Value.display)).count label :=
  length_rowsReading label (cells labelColumn t)

theorem length_columns_take (t : Table) (rows : List Nat) :
    ∀ c ∈ (t.take rows).columns, c.length = (t.take rows).rowCount := by
  intro c hc
  obtain ⟨d, -, rfl⟩ := List.mem_map.1 hc
  exact List.length_map _

theorem wellFormed_take {t : Table} (ht : t.names.Nodup) (rows : List Nat) : (t.take rows).WellFormed :=
  ⟨by rwa [names_take], length_columns_take t rows⟩

theorem wellFormed_ofLabel {t : Table} (ht : t.names.Nodup) (labelColumn label : String) :
    (t.ofLabel labelColumn label).WellFormed :=
  wellFormed_take ht _

theorem cells_ofLabel {t : Table} (ht : t.WellFormed) (labelColumn label name : String) :
    cells name (t.ofLabel labelColumn label) = beside label (cells labelColumn t) (cells name t) := by
  rw [ofLabel, cells_take]
  exact map_rowsReading label (by rw [length_cells ht.2, length_cells ht.2])

/-- A label without rows has no table. -/
def ofLabel? (t : Table) (labelColumn label : String) : Option Table :=
  if (t.ofLabel labelColumn label).rowCount = 0 then none else some (t.ofLabel labelColumn label)

section
variable (labelColumn label : String)

theorem ofLabel?_eq_some {t u : Table} (h : t.ofLabel? labelColumn label = some u) : u = t.ofLabel labelColumn label := by
  rw [ofLabel?] at h
  split at h
  · cases h
  · exact (Option.some.inj h).symm

theorem rowCount_ofLabel? (t : Table) :
    (t.ofLabel? labelColumn label).elim 0 rowCount = (t.ofLabel labelColumn label).rowCount := by
  rw [ofLabel?]
  split
  · rename_i h
    exact h.symm
  · rfl

theorem cells_ofLabel? {t : Table} (ht : t.names.Nodup) (name : String) :
    (t.ofLabel? labelColumn label).elim [] (cells name) = cells name (t.ofLabel labelColumn label) := by
  rw [ofLabel?]
  split
  · rename_i h
    have hlength := length_cells (wellFormed_ofLabel ht labelColumn label).2 name
    rw [h] at hlength
    exact (List.length_eq_zero_iff.1 hlength).symm
  · rfl

theorem flatMap_filterMap {α β γ : Type} (f : α → Option β) (g : β → List γ) (l : List α) :
    (l.filterMap f).flatMap g = l.flatMap fun a => (f a).elim [] g := by
  induction l with
  | nil => rfl
  | cons a l ih =>
    rw [List.filterMap_cons, List.flatMap_cons, ← ih]
    cases f a <;> rfl

theorem sum_filterMap {α β : Type} (f : α → Option β) (g : β → Nat) (l : List α) :
    ((l.filterMap f).map g).sum = (l.map fun a => (f a).elim 0 g).sum := by
  induction l with
  | nil => rfl
  | cons a l ih =>
    rw [List.filterMap_cons, List.map_cons, List.sum_cons, ← ih]
    cases f a with
    | none => exact (Nat.zero_add _).symm
    | some b => exact List.sum_cons

variable {tables : List Table} (hwell : ∀ t ∈ tables, t.WellFormed)

theorem rowCount_ofLabel_stack :
    ((stack tables).ofLabel labelColumn label).rowCount =
      (tables.map fun t => (t.ofLabel labelColumn label).rowCount).sum := by
  simp only [rowCount_ofLabel]
  rw [cells_stack, List.filterMap_flatMap, List.count_flatMap]
  rfl

include hwell

theorem cells_ofLabel_stack (name : String) :
    cells name ((stack tables).ofLabel labelColumn label) =
      tables.flatMap fun t => cells name (t.ofLabel labelColumn label) := by
  rw [cells_ofLabel (wellFormed_stack hwell), cells_stack, cells_stack, beside_flatMap]
  · exact List.flatMap_congr fun t ht => (cells_ofLabel (hwell t ht) labelColumn label name).symm
  · intro t ht
    rw [length_cells (hwell t ht).2, length_cells (hwell t ht).2]

/-- Whether tables of one heading are stacked first or the rows of a label taken first. -/
theorem stack_ofLabel {common : List (String × Option ValueType)} (hheading : ∀ t ∈ tables, t.heading = common) :
    stack (tables.filterMap (ofLabel? · labelColumn label)) =
      stack ((stack tables).ofLabel? labelColumn label).toList := by
  have hrows : (stack (tables.filterMap (ofLabel? · labelColumn label))).rowCount =
      ((stack tables).ofLabel labelColumn label).rowCount := by
    rw [rowCount_stack, sum_filterMap, rowCount_ofLabel_stack]
    simp only [rowCount_ofLabel?]
  have hcells : ∀ name, cells name (stack (tables.filterMap (ofLabel? · labelColumn label))) =
      cells name ((stack tables).ofLabel labelColumn label) := by
    intro name
    rw [cells_stack, flatMap_filterMap, cells_ofLabel_stack labelColumn label hwell]
    exact List.flatMap_congr fun t ht => cells_ofLabel? labelColumn label (hwell t ht).1 name
  by_cases hnone : tables.filterMap (ofLabel? · labelColumn label) = []
  · -- no table has rows of the label, so the stack has none
    rw [hnone, rowCount_stack, List.map_nil, List.sum_nil] at hrows
    rw [hnone, ofLabel?, if_pos hrows.symm]
    rfl
  · obtain ⟨u, hu⟩ := List.exists_mem_of_ne_nil _ hnone
    obtain ⟨t, ht, htu⟩ := List.mem_filterMap.1 hu
    have hcommon : (common.map Prod.fst).Nodup := by
      rw [← hheading t ht, ← names_eq]
      exact (hwell t ht).1
    have hparts : ∀ v ∈ tables.filterMap (ofLabel? · labelColumn label), v.heading = common := by
      intro v hv
      obtain ⟨w, hw, hwv⟩ := List.mem_filterMap.1 hv
      rw [ofLabel?_eq_some labelColumn label hwv, ofLabel, heading_take, hheading w hw]
    have hwhole : ((stack tables).ofLabel labelColumn label).heading = common := by
      rw [ofLabel, heading_take, heading_stack hcommon hheading (List.ne_nil_of_mem ht)]
    have hsame := eq_of_cells (by rwa [names_eq, heading_stack hcommon hparts hnone])
      ((heading_stack hcommon hparts hnone).trans hwhole.symm) hrows fun name _ => hcells name
    -- the rows of `t` are among those of the stack
    have hpos : ((stack tables).ofLabel labelColumn label).rowCount ≠ 0 := by
      have hle := List.le_sum_of_mem (List.mem_map_of_mem (f := fun t => (t.ofLabel labelColumn label).rowCount) ht)
      rw [rowCount_ofLabel_stack]
      rw [ofLabel?] at htu
      split at htu
      · cases htu
      · omega
    rw [hsame, ofLabel?, if_neg hpos, Option.toList_some, stack_singleton]
    rw [names_eq, hwhole]
    exact hcommon

end

end GraphProfile.Table
