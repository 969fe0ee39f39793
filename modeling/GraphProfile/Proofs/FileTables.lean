import GraphProfile.Delimited.Table
import GraphProfile.Proofs.BuiltTables
import GraphProfile.Proofs.Classification

set_option autoImplicit false

namespace GraphProfile

namespace Delimited

/-- A column that keeps its texts whatever they look like. -/
def isVerbatim (name : String) : Bool :=
  (Header.parse name).isStructural || (Header.parse name).declared == some .string

/-- The narrowest type that all cells have which are not empty. -/
def narrowest (cells : List String) : ValueType :=
  if (present cells).all fun s => (readInt? s).isSome then .int
  else if (present cells).all fun s => (readFloat? s).isSome then .float
  else .string

def readAs : ValueType → String → Option Value
  | .int => readInt?
  | .float => readFloat?
  | .string => readText?

theorem reading_eq (cells : List String) : reading cells = readAs (narrowest cells) := by
  rw [reading, narrowest]
  split
  · rfl
  · split <;> rfl

/-- The type that all cells of a column are read as. -/
def readType (name : String) (cells : List String) : ValueType := if isVerbatim name then .string else narrowest cells

theorem values_column_eq (name : String) (cells : List String) :
    (column name cells).values = cells.map (cellWith (readAs (readType name cells))) := by
  rw [readType, apply_ite readAs, ← reading_eq]
  rfl

theorem mem_present {cells : List String} {s : String} : s ∈ present cells ↔ s ∈ cells ∧ s ≠ "" := by
  simp [present]

theorem present_append (above below : List String) : present (above ++ below) = present above ++ present below :=
  List.filter_append ..

theorem type_of_readAs {type : ValueType} {s : String} {v : Value} (h : readAs type s = some v) : v.type = type := by
  cases type with
  | int =>
    obtain ⟨n, -, rfl⟩ := Option.map_eq_some_iff.1 h
    rfl
  | float =>
    obtain ⟨x, -, rfl⟩ := Option.map_eq_some_iff.1 h
    rfl
  | string =>
    cases h
    rfl

theorem readAs_isSome (name : String) {cells : List String} {s : String} (h : s ∈ present cells) :
    (readAs (readType name cells) s).isSome := by
  rw [readType, narrowest]
  split
  · rfl
  · split
    · rename_i hall
      exact List.all_eq_true.1 hall s h
    · split
      · rename_i hall
        exact List.all_eq_true.1 hall s h
      · rfl

theorem readType_of_declared {name : String} {cells : List String} (h : (Header.parse name).declared = some .string) :
    readType name cells = .string := by
  rw [readType, isVerbatim, if_pos]
  rw [h, beq_self_eq_true, Bool.or_true]

theorem readType_of_present {name : String} {cells more : List String} (h : present cells = present more) :
    readType name cells = readType name more := by
  rw [readType, readType, narrowest, narrowest, h]

theorem exists_present_of_mem {read : String → Option Value} {fields : List String} {v : Value}
    (h : some v ∈ fields.map (cellWith read)) : ∃ s ∈ present fields, read s = some v := by
  obtain ⟨s, hs, hread⟩ := List.mem_map.1 h
  rw [cellWith, Option.ite_none_left_eq_some] at hread
  exact ⟨s, mem_present.2 ⟨hs, by simpa using hread.1⟩, hread.2⟩

theorem reduceOption_of_present {read : String → Option Value} {fields : List String} (h : present fields = []) :
    (fields.map (cellWith read)).reduceOption = [] := by
  refine List.eq_nil_iff_forall_not_mem.2 fun v hv => ?_
  obtain ⟨s, hs, -⟩ := exists_present_of_mem (List.reduceOption_mem_iff.1 hv)
  exact List.ne_nil_of_mem hs h

def cellsAt (i : Nat) (rows : List (List String)) : List String := rows.map fun row => row.getD i ""

theorem transpose_eq {width : Nat} {rows : List (List String)} (h : ∀ row ∈ rows, row.length = width) :
    transpose width rows = (List.range width).map fun i => cellsAt i rows := by
  induction rows with
  | nil =>
    rw [transpose, List.foldr_nil]
    symm
    refine List.eq_replicate_iff.2 ⟨by simp, ?_⟩
    intro cells hcells
    obtain ⟨i, -, rfl⟩ := List.mem_map.1 hcells
    rfl
  | cons row rows ih =>
    have hrest : transpose width rows = _ := ih fun r hr => h r (List.mem_cons_of_mem row hr)
    have hrow : row.length = width := h row List.mem_cons_self
    change List.zipWith List.cons row (transpose width rows) = _
    rw [hrest]
    apply List.ext_getElem
    · simp [hrow]
    · intro i hi _
      have hi : i < row.length := by
        rw [List.length_zipWith] at hi
        omega
      simp [cellsAt, hi]

theorem heading_cons (names : List String) (rows : List (List String)) : heading true (names :: rows) = (names, rows) :=
  rfl

theorem mem_of_heading {hasHeader : Bool} {records rows : List (List String)} {names : List String}
    (hheading : heading hasHeader records = (names, rows)) {row : List String} (h : row ∈ rows) : row ∈ records := by
  rw [heading] at hheading
  split at hheading
  · cases hheading
    exact List.mem_of_mem_tail h
  · cases hheading
    exact h

/-- The table of rows under their names. Without a name there are no columns, and so no rows. -/
def tableOfRows (names : List String) (rows : List (List String)) : Table :=
  ⟨names.zipIdx.map fun c => column c.1 (cellsAt c.2 rows), if names = [] then 0 else rows.length⟩

theorem names_tableOfRows (names : List String) (rows : List (List String)) :
    (tableOfRows names rows).columns.map Column.name = names := by
  rw [tableOfRows, List.map_map]
  exact List.zipIdx_map_fst 0 names

theorem heading_tableOfRows (names : List String) (rows : List (List String)) :
    (tableOfRows names rows).heading = names.map fun name => (name, (column name []).declared) := by
  rw [Table.heading, tableOfRows, List.map_map]
  nth_rewrite 2 [← List.zipIdx_map_fst 0 names]
  rw [List.map_map]
  rfl

section
variable {names : List String}

theorem cells_tableOfRows (rows : List (List String)) (hnames : names.Nodup) {c : String × Nat}
    (hc : c ∈ names.zipIdx) : Table.cells c.1 (tableOfRows names rows) = (column c.1 (cellsAt c.2 rows)).values :=
  Table.cells_of_mem (by rwa [Table.names, names_tableOfRows names rows]) (List.mem_map_of_mem hc)

variable {rows : List (List String)}

theorem length_columns_tableOfRows :
    ∀ c ∈ (tableOfRows names rows).columns, c.length = (tableOfRows names rows).rowCount := by
  intro c hc
  obtain ⟨entry, hentry, rfl⟩ := List.mem_map.1 hc
  have hne : names ≠ [] := fun h => by simp [h] at hentry
  rw [tableOfRows, if_neg hne]
  simp [Column.length, column, cellsAt]

theorem wellFormed_tableOfRows (hnames : names.Nodup) : (tableOfRows names rows).WellFormed :=
  ⟨by rwa [Table.names, names_tableOfRows], length_columns_tableOfRows⟩

theorem length_eq_of_tableOfRows :
    ∀ c ∈ (tableOfRows names rows).columns, ∀ d ∈ (tableOfRows names rows).columns, c.length = d.length := by
  intro c hc d hd
  rw [length_columns_tableOfRows c hc, length_columns_tableOfRows d hd]

section
variable {hasHeader : Bool} {records : List (List String)} (hheading : heading hasHeader records = (names, rows))
  (hwidth : ∀ record ∈ records, record.length = names.length)
include hheading hwidth

theorem tableOfTexts_eq : tableOfTexts hasHeader records = Table.ofColumns (tableOfRows names rows).columns := by
  have hrows : ∀ row ∈ rows, row.length = names.length := fun row hrow => hwidth row (mem_of_heading hheading hrow)
  rw [tableOfTexts, hheading]
  apply congrArg Table.ofColumns
  rw [transpose_eq hrows, List.zipWith_map_right, tableOfRows, List.zipIdx_eq_zip_range', ← List.range_eq_range']
  change _ = List.map _ _
  rw [List.map_zip_eq_zipWith]
  rfl

theorem tableOfTexts_of_nodup (hnames : names.Nodup) : tableOfTexts hasHeader records = .ok (tableOfRows names rows) := by
  rw [tableOfTexts_eq hheading hwidth, Table.ofColumns_eq_ok_iff, names_tableOfRows]
  refine ⟨length_eq_of_tableOfRows, hnames, ?_⟩
  cases names <;> simp [tableOfRows, Column.length, column, cellsAt]

theorem tableOfTexts_of_not_nodup (hnames : ¬names.Nodup) :
    ∃ name, 1 < names.count name ∧ tableOfTexts hasHeader records = .error (.duplicate name) := by
  have hcolumns : ¬((tableOfRows names rows).columns.map Column.name).Nodup := by rwa [names_tableOfRows]
  have hduplicate := Table.ofColumns_eq_duplicate length_eq_of_tableOfRows hcolumns
  rwa [names_tableOfRows, ← tableOfTexts_eq hheading hwidth] at hduplicate

end

end

theorem mapM_eq_ok_iff {α β ε : Type} {f : α → Except ε β} {l : List α} {found : List β} :
    l.mapM f = .ok found ↔ List.Forall₂ (fun a b => f a = .ok b) l found := by
  induction l generalizing found with
  | nil => simp [pure, Except.pure, eq_comm]
  | cons a l ih =>
    rw [List.mapM_cons]
    cases ha : f a with
    | error e =>
      refine iff_of_false (fun h => by cases h) ?_
      rintro (- | ⟨hb, -⟩)
      cases ha.symm.trans hb
    | ok b =>
      cases hl : l.mapM f with
      | error e =>
        refine iff_of_false (fun h => by cases h) ?_
        rintro (- | ⟨-, hrest⟩)
        cases hl.symm.trans (ih.2 hrest)
      | ok rest =>
        constructor
        · intro h
          cases h
          exact .cons ha (ih.1 hl)
        · rintro (- | ⟨hb, hrest⟩)
          cases ha.symm.trans hb
          cases hl.symm.trans (ih.2 hrest)
          rfl

theorem length_of_row_texts {expected : Nat} {r : Row} {row : List String} (h : r.texts expected = .ok row) :
    row.length = expected := by
  rw [Row.texts] at h
  split at h
  · cases h
  · rename_i hlength
    have hfields := (mapM_eq_ok_iff.1 h).length_eq
    rw [List.length_zipIdx] at hfields
    omega

theorem length_of_mem_texts {rs : List Row} {records : List (List String)} (h : texts rs = .ok records) :
    ∀ record ∈ records, record.length = rs.head?.elim 0 fun r => r.fields.length := by
  generalize hn : rs.head?.elim 0 (fun r => r.fields.length) = n at *
  rw [texts, hn] at h
  have hall := (mapM_eq_ok_iff.1 h).flip.imp fun record r hr => And.intro (length_of_row_texts hr) hr
  exact ((List.forall₂_and_left _ _).1 hall).1

/-- There are as many names as fields, whether they are read or made. -/
theorem length_of_heading {hasHeader : Bool} {rs : List Row} {records rows : List (List String)} {names : List String}
    (hheading : heading hasHeader records = (names, rows)) (h : texts rs = .ok records) :
    ∀ record ∈ records, record.length = names.length := by
  have hlength := length_of_mem_texts h
  have hwidth : ∀ record ∈ records, record.length = (records.headD []).length := by
    cases records with
    | nil => exact fun record hrecord => by cases hrecord
    | cons first records =>
      intro record hrecord
      rw [hlength record hrecord, List.headD_cons, hlength first List.mem_cons_self]
  rw [heading] at hheading
  split at hheading
  · cases hheading
    exact hwidth
  · cases hheading
    rwa [numberedNames, List.length_map, List.length_range]

theorem table_of_texts {options : Options} {bytes : List UInt8} {records : List (List String)}
    (h : texts (rows options.delimiter bytes) = .ok records) :
    table options bytes = (tableOfTexts options.hasHeader records).mapError .misfit := by
  rw [table, h]

end Delimited
end GraphProfile
