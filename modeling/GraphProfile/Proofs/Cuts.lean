import GraphProfile.Files.Dataset
import GraphProfile.Proofs.FileTables
import GraphProfile.Proofs.Views

set_option autoImplicit false

/-!
# Files cut into two

Where the rows of a file are cut its columns are cut. What a field is read as depends on all the fields of its column in
the file, though: a column of texts may be one of numbers above the cut. Pooled, the fields of a label are brought back
to one type, and that makes up for it where the label still has that type and no field has lost its text or its sign.
-/
namespace GraphProfile
namespace Delimited

/-- Fields that are read as one type are in a column of another what they would be if they were read as that. -/
def ReadsInto (read type : ValueType) (fields : List String) : Prop :=
  ∀ s ∈ present fields, (readAs read s).bind (Value.inType type) = readAs type s

instance (read type : ValueType) (fields : List String) : Decidable (ReadsInto read type fields) :=
  inferInstanceAs (Decidable (∀ s ∈ _, _))

/-- Whether the fields `upper` and `lower` that a label has in a column are pooled as they are read in one file, all
    fields of the column being `above` and `below`: each of them becomes the same, and the label has the type that the
    column has in one file. -/
def PooledAlike (name : String) (above below upper lower : List String) : Prop :=
  let type := readType name (above ++ below)
  ReadsInto (readType name above) type upper ∧ ReadsInto (readType name below) type lower ∧
    (present (upper ++ lower) = [] ∨ (Header.parse name).declared = some type ∨
      present upper ≠ [] ∧ readType name above = type ∨ present lower ≠ [] ∧ readType name below = type)

instance (name : String) (above below upper lower : List String) :
    Decidable (PooledAlike name above below upper lower) :=
  inferInstanceAs (Decidable (_ ∧ _ ∧ _))

theorem map_inType_of_readsInto {read type : ValueType} {fields : List String} (h : ReadsInto read type fields) :
    (fields.map (cellWith (readAs read))).map (fun cell => cell.bind (Value.inType type)) =
      fields.map (cellWith (readAs type)) := by
  rw [List.map_map]
  apply List.map_congr_left
  intro s hs
  by_cases hempty : s.isEmpty
  · simp [cellWith, hempty]
  · simpa [cellWith, hempty] using h s (mem_present.2 ⟨hs, by simpa using hempty⟩)

section
variable {name : String} {all fields : List String} (hsub : fields ⊆ all)
include hsub

theorem isSome_inType {read : ValueType} (h : ReadsInto read (readType name all) fields) {v : Value}
    (hv : some v ∈ fields.map (cellWith (readAs read))) : (v.inType (readType name all)).isSome := by
  obtain ⟨s, hs, hread⟩ := exists_present_of_mem hv
  obtain ⟨hmem, hne⟩ := mem_present.1 hs
  have himage := h s hs
  rw [hread, Option.bind_some] at himage
  rw [himage]
  exact readAs_isSome name (mem_present.2 ⟨hsub hmem, hne⟩)

variable (name)

theorem exists_of_readType (hne : present fields ≠ []) :
    ∃ v, some v ∈ fields.map (cellWith (readAs (readType name all))) ∧ v.type = readType name all := by
  obtain ⟨s, hs⟩ := List.exists_mem_of_ne_nil _ hne
  obtain ⟨hmem, hfull⟩ := mem_present.1 hs
  obtain ⟨v, hv⟩ := Option.isSome_iff_exists.1 (readAs_isSome name (mem_present.2 ⟨hsub hmem, hfull⟩))
  refine ⟨v, List.mem_map.2 ⟨s, hmem, ?_⟩, type_of_readAs hv⟩
  rw [cellWith, if_neg (by simpa using hfull), hv]

end

theorem classify_of_pooledAlike {name : String} {above below upper lower : List String}
    (h : PooledAlike name above below upper lower) (hupper : upper ⊆ above) (hlower : lower ⊆ below) :
    classify (Header.parse name).declared (upper.map (cellWith (readAs (readType name above))) ++
        lower.map (cellWith (readAs (readType name below)))) =
      classify (Header.parse name).declared
        ((upper ++ lower).map (cellWith (readAs (readType name (above ++ below))))) := by
  obtain ⟨habove, hbelow, hreached⟩ := h
  rw [List.map_append, ← map_inType_of_readsInto habove, ← map_inType_of_readsInto hbelow, ← List.map_append]
  symm
  apply Classified.classify_inType
  · intro v hv
    rcases List.mem_append.1 (List.reduceOption_mem_iff.1 hv) with hv | hv
    · exact isSome_inType (List.subset_append_of_subset_left below hupper) habove hv
    · exact isSome_inType (List.subset_append_of_subset_right above hlower) hbelow hv
  · exact readType_of_declared
  · rcases hreached with hnone | hdeclared | ⟨hne, htype⟩ | ⟨hne, htype⟩
    · rw [present_append, List.append_eq_nil_iff] at hnone
      left
      rw [List.reduceOption_append, reduceOption_of_present hnone.1, reduceOption_of_present hnone.2, List.nil_append]
    · exact .inr (.inl hdeclared)
    · obtain ⟨v, hv, hvtype⟩ := exists_of_readType name hupper hne
      exact .inr (.inr ⟨v, List.reduceOption_mem_iff.2 (List.mem_append_left _ hv), hvtype.trans htype⟩)
    · obtain ⟨v, hv, hvtype⟩ := exists_of_readType name hlower hne
      exact .inr (.inr ⟨v, List.reduceOption_mem_iff.2 (List.mem_append_right _ hv), hvtype.trans htype⟩)

/-- The label of a row, if its label is read as the type. -/
def labelOf (type : ValueType) (i : ℕ) (row : List String) : Option String :=
  (cellWith (readAs type) (row.getD i "")).map Value.display

/-- Whether the rows on both sides of a cut keep their labels when they are pooled, the label column being given, and
    each label what it has in the data columns. -/
def AlikeUnder (labels : String × ℕ) (names : List String) (upper lower : List (List String)) : Prop :=
  let label := labelOf (readType labels.1 (cellsAt labels.2 (upper ++ lower))) labels.2
  (∀ row ∈ upper, labelOf (readType labels.1 (cellsAt labels.2 upper)) labels.2 row = label row) ∧
    (∀ row ∈ lower, labelOf (readType labels.1 (cellsAt labels.2 lower)) labels.2 row = label row) ∧
      ∀ text ∈ (upper ++ lower).filterMap label, ∀ c ∈ names.zipIdx, (Header.parse c.1).isStructural = false →
        c.1 ≠ labels.1 → PooledAlike c.1 (cellsAt c.2 upper) (cellsAt c.2 lower)
          (cellsAt c.2 (upper.filter fun row => label row = some text))
          (cellsAt c.2 (lower.filter fun row => label row = some text))

instance (labels : String × ℕ) (names : List String) (upper lower : List (List String)) :
    Decidable (AlikeUnder labels names upper lower) :=
  inferInstanceAs (Decidable (_ ∧ _ ∧ _))

/-- Pooling changes nothing about the rows on both sides of a cut. Without a label column none are pooled. -/
def AlikeRows (labelColumn : String) (names : List String) (upper lower : List (List String)) : Prop :=
  ∀ labels ∈ names.zipIdx, labels.1 = labelColumn → AlikeUnder labels names upper lower

instance (labelColumn : String) (names : List String) (upper lower : List (List String)) :
    Decidable (AlikeRows labelColumn names upper lower) :=
  inferInstanceAs (Decidable (∀ labels ∈ _, _))

theorem cellsAt_subset (i : ℕ) (p : List String → Bool) (rows : List (List String)) :
    cellsAt i (rows.filter p) ⊆ cellsAt i rows :=
  List.map_subset _ (List.filter_subset_self rows)

theorem readsInto_self (type : ValueType) (fields : List String) : ReadsInto type type fields := by
  intro s _
  cases h : readAs type s with
  | none => rfl
  | some v => exact type_of_readAs h ▸ v.inType_type

theorem narrowest_append {above below : List String} (h : narrowest above = narrowest below) :
    narrowest (above ++ below) = narrowest below := by
  rw [narrowest, narrowest] at h
  rw [narrowest, narrowest, present_append, List.all_append, List.all_append]
  generalize (present above).all (fun s => (readInt? s).isSome) = aboveInts at *
  generalize (present below).all (fun s => (readInt? s).isSome) = belowInts at *
  generalize (present above).all (fun s => (readFloat? s).isSome) = aboveFloats at *
  generalize (present below).all (fun s => (readFloat? s).isSome) = belowFloats at *
  cases aboveInts <;> cases belowInts <;> cases aboveFloats <;> cases belowFloats <;> simp_all

/-- Whether a column is read in one way above and below a cut. -/
def Alike (name : String) (above below : List String) : Prop :=
  present above = [] ∨ present below = [] ∨ readType name above = readType name below

theorem Alike.readType_eq {name : String} {above below : List String} (h : Alike name above below) :
    (present above = [] ∨ readType name above = readType name (above ++ below)) ∧
      (present below = [] ∨ readType name below = readType name (above ++ below)) := by
  rcases h with habove | hbelow | hsame
  · exact ⟨.inl habove, .inr (readType_of_present (by rw [present_append, habove, List.nil_append]))⟩
  · exact ⟨.inr (readType_of_present (by rw [present_append, hbelow, List.append_nil])), .inl hbelow⟩
  · have hwhole : readType name (above ++ below) = readType name below := by
      rw [readType, readType] at hsame ⊢
      split
      · rfl
      · rename_i hverbatim
        rw [if_neg hverbatim, if_neg hverbatim] at hsame
        exact narrowest_append hsame
    exact ⟨.inr (hsame.trans hwhole.symm), .inr hwhole.symm⟩

theorem Alike.pooledAlike {name : String} {above below upper lower : List String} (h : Alike name above below)
    (hupper : upper ⊆ above) (hlower : lower ⊆ below) : PooledAlike name above below upper lower := by
  have hnone : ∀ {fields all : List String}, fields ⊆ all → present all = [] → present fields = [] :=
    fun hsub hall => List.subset_nil.1 (hall ▸ List.filter_subset _ hsub)
  have hinto : ∀ {fields all : List String}, fields ⊆ all →
      present all = [] ∨ readType name all = readType name (above ++ below) →
        ReadsInto (readType name all) (readType name (above ++ below)) fields := by
    rintro fields all hsub (hall | htype)
    · intro s hs
      cases (hnone hsub hall) ▸ hs
    · rw [htype]
      exact readsInto_self _ fields
  obtain ⟨habove, hbelow⟩ := h.readType_eq
  refine ⟨hinto hupper habove, hinto hlower hbelow, ?_⟩
  by_cases hu : present upper = []
  · by_cases hl : present lower = []
    · exact .inl (by rw [present_append, hu, hl, List.append_nil])
    · exact .inr (.inr (.inr ⟨hl, hbelow.resolve_left fun hall => hl (hnone hlower hall)⟩))
  · exact .inr (.inr (.inl ⟨hu, habove.resolve_left fun hall => hu (hnone hupper hall)⟩))

/-- Nothing changes where no column is read in another way on one side of the cut. -/
theorem alikeRows_of_alike {names : List String} {upper lower : List (List String)}
    (h : ∀ c ∈ names.zipIdx, Alike c.1 (cellsAt c.2 upper) (cellsAt c.2 lower)) (labelColumn : String) :
    AlikeRows labelColumn names upper lower := by
  intro labels hlabels _
  have hlabel : ∀ {rows : List (List String)} {type : ValueType},
      present (cellsAt labels.2 rows) = [] ∨ readType labels.1 (cellsAt labels.2 rows) = type →
        ∀ row ∈ rows,
          labelOf (readType labels.1 (cellsAt labels.2 rows)) labels.2 row = labelOf type labels.2 row := by
    rintro rows type (hnone | htype) row hrow
    · have hempty : (row.getD labels.2 "").isEmpty := by
        by_contra hfull
        have hmem : row.getD labels.2 "" ∈ present (cellsAt labels.2 rows) :=
          mem_present.2 ⟨List.mem_map_of_mem hrow, by simpa using hfull⟩
        exact List.ne_nil_of_mem hmem hnone
      rw [labelOf, labelOf, cellWith, cellWith, if_pos hempty, if_pos hempty]
    · rw [htype]
  have hwhole : cellsAt labels.2 (upper ++ lower) = cellsAt labels.2 upper ++ cellsAt labels.2 lower := List.map_append
  obtain ⟨habove, hbelow⟩ := (h labels hlabels).readType_eq
  rw [← hwhole] at habove hbelow
  refine ⟨hlabel habove, hlabel hbelow, fun text _ c hc _ _ => ?_⟩
  exact (h c hc).pooledAlike (cellsAt_subset ..) (cellsAt_subset ..)

/-- The rows on both sides of a cut as they are pooled. -/
def pooledRows (names : List String) (upper lower : List (List String)) : Table :=
  ⟨names.zipIdx.map fun c =>
    ⟨c.1, (column c.1 []).declared,
      (column c.1 (cellsAt c.2 upper)).values ++ (column c.1 (cellsAt c.2 lower)).values⟩,
    (tableOfRows names (upper ++ lower)).rowCount⟩

section
variable {names : List String} (hnames : names.Nodup) (upper lower : List (List String))

theorem names_pooledRows : (pooledRows names upper lower).names = names := by
  rw [pooledRows, Table.names, List.map_map]
  exact List.zipIdx_map_fst 0 names

theorem heading_pooledRows :
    (pooledRows names upper lower).heading = names.map fun name => (name, (column name []).declared) := by
  rw [Table.heading, pooledRows, List.map_map]
  nth_rewrite 2 [← List.zipIdx_map_fst 0 names]
  rw [List.map_map]
  rfl

include hnames

theorem cells_pooledRows {c : String × ℕ} (hc : c ∈ names.zipIdx) :
    Table.cells c.1 (pooledRows names upper lower) =
      (column c.1 (cellsAt c.2 upper)).values ++ (column c.1 (cellsAt c.2 lower)).values :=
  Table.cells_of_mem (c := ⟨c.1, _, _⟩) (by rwa [names_pooledRows]) (List.mem_map_of_mem hc)

theorem stack_tableOfRows :
    Table.stack [tableOfRows names upper, tableOfRows names lower] = pooledRows names upper lower := by
  have hheading : (Table.stack [tableOfRows names upper, tableOfRows names lower]).heading =
      (pooledRows names upper lower).heading := by
    rw [heading_pooledRows]
    apply Table.heading_stack
    · rw [List.map_map]
      exact (List.map_id names).symm ▸ hnames
    · simp [heading_tableOfRows]
    · simp
  have hstack : (Table.stack [tableOfRows names upper, tableOfRows names lower]).names = names := by
    rw [Table.names_eq, hheading, ← Table.names_eq, names_pooledRows]
  apply Table.eq_of_cells (by rwa [hstack]) hheading
  · rw [Table.rowCount_stack, pooledRows, tableOfRows, tableOfRows, tableOfRows]
    simp only
    split <;> simp
  · intro name hname
    rw [hstack] at hname
    rw [← List.zipIdx_map_fst 0 names] at hname
    obtain ⟨c, hc, rfl⟩ := List.mem_map.1 hname
    rw [Table.cells_stack, List.flatMap_cons, List.flatMap_singleton, cells_tableOfRows _ hnames hc,
      cells_tableOfRows _ hnames hc, cells_pooledRows hnames upper lower hc]

end

theorem map_cellsAt {β : Type} (i : ℕ) (rows : List (List String)) (f : String → β) :
    (cellsAt i rows).map f = rows.map fun row => f (row.getD i "") := List.map_map

theorem beside_cellsAt (label : String) (type : ValueType) (i j : ℕ) (rows : List (List String))
    (f : String → Option Value) :
    Table.beside label ((cellsAt i rows).map (cellWith (readAs type))) ((cellsAt j rows).map f) =
      (cellsAt j (rows.filter fun row => labelOf type i row = some label)).map f := by
  rw [map_cellsAt, map_cellsAt, map_cellsAt, Table.beside_map]
  simp only [reads_eq]
  rfl

theorem wellFormed_pooledRows {names : List String} (hnames : names.Nodup) (upper lower : List (List String)) :
    (pooledRows names upper lower).WellFormed := by
  rw [← stack_tableOfRows hnames]
  apply Table.wellFormed_stack
  simp [wellFormed_tableOfRows hnames]

section
variable {names : List String} (hnames : names.Nodup) {labels c : String × ℕ} (hlabels : labels ∈ names.zipIdx)
include hnames hlabels

theorem beside_tableOfRows (rows : List (List String)) (label : String) :
    Table.beside label (Table.cells labels.1 (tableOfRows names rows)) (column c.1 (cellsAt c.2 rows)).values =
      (cellsAt c.2 (rows.filter fun row =>
        labelOf (readType labels.1 (cellsAt labels.2 rows)) labels.2 row = some label)).map
          (cellWith (readAs (readType c.1 (cellsAt c.2 rows)))) := by
  rw [cells_tableOfRows rows hnames hlabels, values_column_eq, values_column_eq, beside_cellsAt]

variable (upper lower : List (List String))

theorem beside_pooledRows (label : String) :
    Table.beside label (Table.cells labels.1 (pooledRows names upper lower))
        ((column c.1 (cellsAt c.2 upper)).values ++ (column c.1 (cellsAt c.2 lower)).values) =
      Table.beside label (Table.cells labels.1 (tableOfRows names upper)) (column c.1 (cellsAt c.2 upper)).values ++
        Table.beside label (Table.cells labels.1 (tableOfRows names lower)) (column c.1 (cellsAt c.2 lower)).values := by
  rw [cells_pooledRows hnames upper lower hlabels, cells_tableOfRows upper hnames hlabels,
    cells_tableOfRows lower hnames hlabels, Table.beside_append]
  simp [values_column_eq, cellsAt]

variable {upper lower} (h : AlikeUnder labels names upper lower)
include h

theorem displayed_pooledRows :
    (Table.cells labels.1 (pooledRows names upper lower)).map (Option.map Value.display) =
      (Table.cells labels.1 (tableOfRows names (upper ++ lower))).map (Option.map Value.display) := by
  obtain ⟨hupper, hlower, -⟩ := h
  rw [cells_pooledRows hnames upper lower hlabels, cells_tableOfRows _ hnames hlabels, values_column_eq,
    values_column_eq, values_column_eq, map_cellsAt, map_cellsAt, map_cellsAt, List.map_append, List.map_append, List.map_append,
    List.map_map, List.map_map, List.map_map, List.map_map]
  exact congrArg₂ _ (List.map_congr_left hupper) (List.map_congr_left hlower)

/-- What stands beside a label in a data column is classified alike, whether it is pooled or in one file. -/
theorem classify_beside_pooledRows {label : String}
    (hlabel : some label ∈ (Table.cells labels.1 (tableOfRows names (upper ++ lower))).map (Option.map Value.display))
    (hc : c ∈ names.zipIdx) (hdata : (Header.parse c.1).isStructural = false) (hne : c.1 ≠ labels.1) :
    classify (Header.parse c.1).declared (Table.beside label (Table.cells labels.1 (pooledRows names upper lower))
        ((column c.1 (cellsAt c.2 upper)).values ++ (column c.1 (cellsAt c.2 lower)).values)) =
      classify (Header.parse c.1).declared
        (Table.beside label (Table.cells labels.1 (tableOfRows names (upper ++ lower)))
          (column c.1 (cellsAt c.2 (upper ++ lower))).values) := by
  obtain ⟨hupper, hlower, hpooled⟩ := h
  have hmem : label ∈ (upper ++ lower).filterMap
      (labelOf (readType labels.1 (cellsAt labels.2 (upper ++ lower))) labels.2) := by
    rw [cells_tableOfRows _ hnames hlabels, values_column_eq, map_cellsAt, List.map_map] at hlabel
    obtain ⟨row, hrow, htext⟩ := List.mem_map.1 hlabel
    exact List.mem_filterMap.2 ⟨row, hrow, htext⟩
  have hclass := classify_of_pooledAlike (hpooled label hmem c hc hdata hne) (cellsAt_subset ..) (cellsAt_subset ..)
  have hfilter : ∀ {rows : List (List String)} {type other : ValueType},
      (∀ row ∈ rows, labelOf type labels.2 row = labelOf other labels.2 row) →
        (rows.filter fun row => labelOf type labels.2 row = some label) =
          rows.filter fun row => labelOf other labels.2 row = some label := by
    intro rows type other hrows
    apply List.filter_congr
    intro row hrow
    rw [hrows row hrow]
  rw [beside_pooledRows hnames hlabels, beside_tableOfRows hnames hlabels, beside_tableOfRows hnames hlabels,
    beside_tableOfRows hnames hlabels, hfilter hupper, hfilter hlower, List.filter_append]
  simpa only [cellsAt, List.map_append] using hclass

theorem attributes_pooledRows (maxBins : ℕ) {label : String}
    (hlabel : some label ∈ (Table.cells labels.1 (tableOfRows names (upper ++ lower))).map (Option.map Value.display)) :
    (Partition.mk label labels.1 ((pooledRows names upper lower).ofLabel labels.1 label)).attributes maxBins =
      (Partition.mk label labels.1 ((tableOfRows names (upper ++ lower)).ofLabel labels.1 label)).attributes maxBins := by
  apply Partition.attributes_ofLabel_congr
  · exact (wellFormed_pooledRows hnames upper lower).2
  · exact length_columns_tableOfRows
  · exact displayed_pooledRows hnames hlabels h
  · change List.Forall₂ _ (names.zipIdx.map _) (names.zipIdx.map _)
    rw [List.forall₂_map_left_iff, List.forall₂_map_right_iff, List.forall₂_same]
    intro c hc
    refine ⟨rfl, rfl, fun hdata hne => ?_⟩
    have hdeclared : (column c.1 []).declared = (Header.parse c.1).declared := if_neg (ne_true_of_eq_false hdata)
    rw [hdeclared, Option.or_self, Option.or_self]
    exact classify_beside_pooledRows hnames hlabels h hlabel hc hdata hne

end

end Delimited

namespace Report
open Delimited

section
variable {options : Options} (hheader : options.hasHeader = true) {names : List String} (k : Kind)
include hheader

theorem ofContent_of_nodup (hnames : names.Nodup) {file : String × List UInt8} {body : List (List String)}
    (h : texts (rows options.delimiter file.2) = .ok (names :: body)) :
    Source.ofContent options k file = ⟨file.1, k, .ok (tableOfRows names body)⟩ := by
  have hwidth := length_of_heading (heading_cons names body) h
  rw [Source.ofContent, table_of_texts h, hheader, tableOfTexts_of_nodup (heading_cons names body) hwidth hnames]
  rfl

/-- A file with a name twice is no table, and one without the label column is passed over. -/
theorem contributes_ofContent (settings : Settings) (hnames : ¬(names.Nodup ∧ settings.labelColumns.get k ∈ names))
    {file : String × List UInt8} {body : List (List String)}
    (h : texts (rows options.delimiter file.2) = .ok (names :: body)) :
    (Source.ofContent options k file).contributes settings = false := by
  by_cases hnodup : names.Nodup
  · have hnone : (tableOfRows names body).column? (settings.labelColumns.get k) = none := by
      rw [Table.column?_eq_none_iff, Table.names, names_tableOfRows]
      exact fun hmem => hnames ⟨hnodup, hmem⟩
    rw [ofContent_of_nodup hheader k hnodup h, Source.contributes, Source.labelColumn?]
    exact congrArg Option.isSome hnone
  · have hwidth := length_of_heading (heading_cons names body) h
    obtain ⟨name, -, hm⟩ := tableOfTexts_of_not_nodup (heading_cons names body) hwidth hnodup
    rw [Source.contributes, Source.labelColumn?, Source.ofContent, table_of_texts h, hheader, hm]
    rfl

/-- Pooled rows of two files give the same profile as the rows of one file, if they keep their labels and under each
    label the fields of a column become what they would be in one file. -/
theorem onWorkers_cut {settings : Settings} {upper lower : List (List String)} {first second whole : String × List UInt8}
    (hfirst : texts (rows options.delimiter first.2) = .ok (names :: upper))
    (hsecond : texts (rows options.delimiter second.2) = .ok (names :: lower))
    (hwhole : texts (rows options.delimiter whole.2) = .ok (names :: (upper ++ lower)))
    (halike : AlikeRows (settings.labelColumns.get k) names upper lower) (schedule : Schedule 2) (other : Schedule 1) :
    (onWorkers (settings.withPolicy .combine) [.ofContent options k first, .ofContent options k second] schedule).profile =
      (onWorkers (settings.withPolicy .combine) [.ofContent options k whole] other).profile := by
  rw [profile_onWorkers, profile_onWorkers]
  by_cases hnames : names.Nodup ∧ settings.labelColumns.get k ∈ names
  · obtain ⟨hnodup, hmem⟩ := hnames
    rw [← List.zipIdx_map_fst 0 names] at hmem
    obtain ⟨labels, hlabels, hlabel⟩ := List.mem_map.1 hmem
    have halike := halike labels hlabels hlabel
    let pieces := [(first.1, tableOfRows names upper), (second.1, tableOfRows names lower)]
    have hpieces : ∀ e ∈ pieces, e.2.WellFormed := by simp [pieces, wellFormed_tableOfRows hnodup]
    have hheading : ∀ e ∈ pieces, e.2.heading = names.map fun name => (name, (column name []).declared) := by
      simp [pieces, heading_tableOfRows]
    rw [ofContent_of_nodup hheader k hnodup hfirst, ofContent_of_nodup hheader k hnodup hsecond,
      ofContent_of_nodup hheader k hnodup hwhole]
    refine (profile_stack k hpieces hheading whole.1).trans ?_
    apply profile_of_table
    · exact Table.nodup_names_stack _
    · exact (wellFormed_tableOfRows hnodup).1
    · rw [← hlabel]
      exact stack_tableOfRows hnodup upper lower ▸ displayed_pooledRows hnodup hlabels halike
    · intro label
      rw [← hlabel]
      exact stack_tableOfRows hnodup upper lower ▸ attributes_pooledRows hnodup hlabels halike settings.maxBins
  · -- none of the files contributes anything
    have hnone : ∀ sources : List Source, (∀ s ∈ sources, s.contributes (settings.withPolicy .combine) = false) →
        (ofSources (settings.withPolicy .combine) sources).profile =
          (ofSources (settings.withPolicy .combine) []).profile := by
      intro sources h
      rw [← profile_ofSources_contributing, List.filter_eq_nil_iff.2 fun s hs => by simp [h s hs]]
    rw [hnone [_, _], hnone [_]]
    · simp [contributes_ofContent hheader k (settings.withPolicy .combine) hnames hwhole]
    · simp [contributes_ofContent hheader k (settings.withPolicy .combine) hnames hfirst,
        contributes_ofContent hheader k (settings.withPolicy .combine) hnames hsecond]

end

/-- Integers above the cut and floats or texts below it, where each label or the header has the wider type itself. -/
theorem onWorkers_cut_alike :
    let first := ("a", ":LABEL|code|n|x|m:double\nA|007|1|7|\nB|7|||3\n".toUTF8.toList)
    let second := ("b", ":LABEL|code|n|x|m:double\nA|12|2.5|y|0.5\nB||3.5|z|\n".toUTF8.toList)
    let whole :=
      ("c", ":LABEL|code|n|x|m:double\nA|007|1|7|\nB|7|||3\nA|12|2.5|y|0.5\nB||3.5|z|\n".toUTF8.toList)
    let names := [":LABEL", "code", "n", "x", "m:double"]
    let upper := [["A", "007", "1", "7", ""], ["B", "7", "", "", "3"]]
    let lower := [["A", "12", "2.5", "y", "0.5"], ["B", "", "3.5", "z", ""]]
    Options.standard.hasHeader = true ∧ texts (rows 124 first.2) = .ok (names :: upper) ∧
      texts (rows 124 second.2) = .ok (names :: lower) ∧
      texts (rows 124 whole.2) = .ok (names :: (upper ++ lower)) ∧
      AlikeRows (Settings.standard.labelColumns.get .vertex) names upper lower ∧
      (onWorkers (Settings.standard.withPolicy .combine)
          [.ofContent .standard .vertex first, .ofContent .standard .vertex second] (.inOrder 2)).profile =
        (onWorkers (Settings.standard.withPolicy .combine) [.ofContent .standard .vertex whole] (.inOrder 1)).profile := by
  intro first second whole names upper lower
  have hheader : Options.standard.hasHeader = true := rfl
  have hfirst : texts (rows 124 first.2) = .ok (names :: upper) := by decide +kernel
  have hsecond : texts (rows 124 second.2) = .ok (names :: lower) := by decide +kernel
  have hwhole : texts (rows 124 whole.2) = .ok (names :: (upper ++ lower)) := by decide +kernel
  have halike : AlikeRows (Settings.standard.labelColumns.get .vertex) names upper lower := by decide +kernel
  exact ⟨hheader, hfirst, hsecond, hwhole, halike,
    onWorkers_cut hheader .vertex hfirst hsecond hwhole halike (.inOrder 2) (.inOrder 1)⟩

/-- A text of digits is counted as the integer that it was above the cut. -/
theorem onWorkers_cut_apart :
    let first := ("a", ":LABEL|code\nPerson|007\n".toUTF8.toList)
    let second := ("b", ":LABEL|code\nPerson|x\n".toUTF8.toList)
    let whole := ("c", ":LABEL|code\nPerson|007\nPerson|x\n".toUTF8.toList)
    (onWorkers (Settings.standard.withPolicy .combine)
        [.ofContent .standard .vertex first, .ofContent .standard .vertex second] (.inOrder 2)).profile ≠
      (onWorkers (Settings.standard.withPolicy .combine) [.ofContent .standard .vertex whole] (.inOrder 1)).profile := by
  intro first second whole hsame
  let counted (sources : List Source) : Option (Option Nat) :=
    ((stacked .standard sources .vertex "Person").attributes 10)["code"]?.map fun r => r.histogram.frequencies["007"]?
  have hcut : counted [.ofContent .standard .vertex first, .ofContent .standard .vertex second] = some none := by
    decide +kernel
  have hwhole : counted [.ofContent .standard .vertex whole] = some (some 1) := by decide +kernel
  rw [profile_onWorkers, profile_onWorkers] at hsame
  have hrecord := congrArg (fun p => (p.get .vertex).record? "Person" "code") hsame
  simp only [record?_ofSources_combine] at hrecord
  have hcounted := congrArg (Option.map fun r => r.histogram.frequencies["007"]?) hrecord
  have hnone : some none = some (some 1) := hcut.symm.trans (hcounted.trans hwhole)
  cases hnone

end Report
end GraphProfile
