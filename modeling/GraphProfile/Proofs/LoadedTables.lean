import GraphProfile.Files.Dataset
import GraphProfile.Files.Tree
import GraphProfile.Proofs.Classification
import GraphProfile.Proofs.EndEstimates

set_option autoImplicit false

namespace GraphProfile

theorem isSome_readFinite? {cs : List Char} (h : (readInt64? cs).isSome) : (readFinite? cs).isSome := by
  obtain ⟨n, hn⟩ := Option.isSome_iff_exists.1 h
  obtain ⟨z, hz, hfits⟩ := Option.bind_eq_some_iff.1 hn
  obtain rfl := toInt_of_toInt64? hfits
  have hfinite : ∀ x, Decimal.float? cs = some x → x.isFinite → (readFinite? cs).isSome := by
    intro x hx hx'
    rw [readFinite?, hx, Option.filter_some, if_pos hx']
    rfl
  rcases Decimal.float?_of_integer? hz (natAbs_toInt_le n) with hsame | ⟨-, hzero⟩
  · exact hfinite _ hsame (isFinite_nearestFloat n)
  · exact hfinite _ hzero (by decide +kernel)

namespace Delimited

namespace Scan

variable {s : Scan} (h : ∀ r ∈ s.rows, r.fields ≠ [])
include h

/-- A row ends with a field, even if that is empty. -/
theorem fields_endRow : ∀ r ∈ s.endRow.rows, r.fields ≠ [] := by
  intro r hr
  rcases List.mem_cons.1 hr with rfl | hr
  · simp [endField]
  · exact h r hr

theorem fields_feed (delimiter : UInt8) (b : UInt8) : ∀ r ∈ (s.feed delimiter b).rows, r.fields ≠ [] := by
  rw [feed]
  rcases step delimiter s.mode b with ⟨mode, move⟩
  cases move with
  | keep => exact h
  | drop => exact h
  | endField => exact h
  | endRow => exact fields_endRow h

theorem fields_foldl_feed (delimiter : UInt8) (bytes : List UInt8) :
    ∀ r ∈ (bytes.foldl (feed delimiter) s).rows, r.fields ≠ [] := by
  induction bytes generalizing s with
  | nil => exact h
  | cons b bytes ih => exact ih (fields_feed h delimiter b)

theorem fields_finish : ∀ r ∈ s.finish, r.fields ≠ [] := by
  rw [finish]
  split
  · exact fun r hr => h r (List.mem_reverse.1 hr)
  · exact fun r hr => fields_endRow h r (List.mem_reverse.1 hr)

end Scan

theorem fields_of_mem_rows (delimiter : UInt8) (bytes : List UInt8) : ∀ r ∈ rows delimiter bytes, r.fields ≠ [] :=
  Scan.fields_finish (Scan.fields_foldl_feed (fun r hr => by cases hr) delimiter _)

section
variable {delimiter : UInt8} {bytes : List UInt8} {records : List (List String)}
  (h : texts (rows delimiter bytes) = .ok records)
include h

theorem ne_nil_of_texts : ∀ record ∈ records, record ≠ [] := by
  intro record hrecord hnil
  have hlength := length_of_mem_texts h record hrecord
  have hrows := (mapM_eq_ok_iff.1 h).length_eq
  cases hrs : rows delimiter bytes with
  | nil =>
    rw [hrs, List.length_nil] at hrows
    exact List.ne_nil_of_mem hrecord (List.length_eq_zero_iff.1 hrows.symm)
  | cons r rs =>
    rw [hrs, hnil, List.length_nil, List.head?_cons, Option.elim_some] at hlength
    exact fields_of_mem_rows delimiter bytes r (hrs ▸ List.mem_cons_self) (List.length_eq_zero_iff.1 hlength.symm)

end

theorem exists_fault_of_mem {rs : List Row} {r : Row} (hr : r ∈ rs) {f : Fault}
    (hfault : r.texts (rs.head?.elim 0 fun r => r.fields.length) = .error f) : ∃ first, texts rs = .error first := by
  cases htexts : texts rs with
  | error first => exact ⟨first, rfl⟩
  | ok records =>
    obtain ⟨i, hi, rfl⟩ := List.getElem_of_mem hr
    have hread := (mapM_eq_ok_iff.1 htexts).get hi ((mapM_eq_ok_iff.1 htexts).length_eq ▸ hi)
    cases hfault.symm.trans hread

theorem heading_eq (hasHeader : Bool) (records : List (List String)) :
    heading hasHeader records =
      (if hasHeader then records.headD [] else numberedNames (records.headD []).length,
        if hasHeader then records.tail else records) := by
  cases hasHeader <;> rfl

theorem nodup_numberedNames (n : ℕ) : (numberedNames n).Nodup := by
  apply List.Nodup.map _ List.nodup_range
  intro i j h
  simpa using h

/-- Records have fields, so a heading without names stands above none. -/
theorem body_eq_nil {hasHeader : Bool} {records body : List (List String)} (hfields : ∀ record ∈ records, record ≠ [])
    (hheading : heading hasHeader records = ([], body)) : body = [] := by
  cases records with
  | nil =>
    rw [List.eq_nil_iff_forall_not_mem]
    exact fun row hrow => List.not_mem_nil (mem_of_heading hheading hrow)
  | cons first records =>
    have hfirst := hfields first List.mem_cons_self
    rw [heading_eq] at hheading
    cases hasHeader with
    | true => exact absurd (congrArg Prod.fst hheading) hfirst
    | false =>
      have hlength := congrArg List.length (congrArg Prod.fst hheading)
      simp [numberedNames, hfirst] at hlength

theorem rowCount_tableOfRows {names : List String} {body : List (List String)} (hnone : names = [] → body = []) :
    (tableOfRows names body).rowCount = body.length := by
  rw [tableOfRows]
  split
  · rename_i hnames
    rw [hnone hnames, List.length_nil]
  · rfl

theorem getElem?_columns_tableOfRows {names : List String} (body : List (List String)) {i : ℕ} {name : String}
    (hi : names[i]? = some name) : (tableOfRows names body).columns[i]? = some (column name (cellsAt i body)) := by
  rw [tableOfRows, List.getElem?_map, List.getElem?_zipIdx, hi]
  simp

/-- All fields with something in them can be read. -/
def AllRead {α : Type} (read : List Char → Option α) (fields : List String) : Prop :=
  ∀ s ∈ fields, s ≠ "" → (read s.toList).isSome

instance {α : Type} (read : List Char → Option α) (fields : List String) : Decidable (AllRead read fields) :=
  inferInstanceAs (Decidable (∀ s ∈ fields, s ≠ "" → _))

/-- What is loaded for a name and the fields of its column. -/
structure Loaded (name : String) (fields : List String) (c : Column) : Prop where
  name_eq : c.name = name
  declared_eq : c.declared = if (Header.parse name).isStructural then none else (Header.parse name).declared
  null_iff : List.Forall₂ (fun s cell => cell = none ↔ s = "") fields c.values
  verbatim : isVerbatim name → c.values = fields.map fun s => if s = "" then none else some (.text s)
  ints : ¬isVerbatim name → AllRead readInt64? fields →
    c.values = fields.map fun s => if s = "" then none else (readInt64? s.toList).map .int
  floats : ¬isVerbatim name → ¬AllRead readInt64? fields → AllRead readFinite? fields →
    c.values = fields.map fun s => if s = "" then none else (readFinite? s.toList).map .float
  texts : ¬isVerbatim name → ¬AllRead readFinite? fields →
    c.values = fields.map fun s => if s = "" then none else some (.text s)
  string_of_not_read : ¬AllRead readFinite? fields → (classify c.declared c.values).type = .string

theorem cellWith_eq (read : String → Option Value) : cellWith read = fun s => if s = "" then none else read s := by
  funext s
  simp [cellWith]

theorem all_present_iff {α : Type} {read : List Char → Option α} {wrap : α → Value} {fields : List String} :
    ((present fields).all fun s => ((read s.toList).map wrap).isSome) = true ↔ AllRead read fields := by
  rw [List.all_eq_true, AllRead]
  simp only [mem_present, and_imp, Option.isSome_map]

section
variable {name : String} {fields : List String}

theorem readType_of_verbatim (h : isVerbatim name) : readType name fields = .string := if_pos h

theorem readType_of_ints (h : ¬isVerbatim name) (hints : AllRead readInt64? fields) : readType name fields = .int := by
  rw [readType, if_neg h, narrowest]
  exact if_pos (all_present_iff.2 hints)

theorem readType_of_floats (h : ¬isVerbatim name) (hints : ¬AllRead readInt64? fields)
    (hfloats : AllRead readFinite? fields) : readType name fields = .float := by
  rw [readType, if_neg h, narrowest]
  exact (if_neg (mt all_present_iff.1 hints)).trans (if_pos (all_present_iff.2 hfloats))

theorem readType_of_not_read (hfloats : ¬AllRead readFinite? fields) : readType name fields = .string := by
  have hints : ¬AllRead readInt64? fields := fun hall => hfloats fun s hs hne => isSome_readFinite? (hall s hs hne)
  rw [readType, narrowest]
  split
  · rfl
  · exact (if_neg (mt all_present_iff.1 hints)).trans (if_neg (mt all_present_iff.1 hfloats))

end

theorem loaded_column (name : String) (fields : List String) : Loaded name fields (column name fields) := by
  have hvalues := values_column_eq name fields
  rw [cellWith_eq] at hvalues
  constructor
  case name_eq => rfl
  case declared_eq => rfl
  case null_iff =>
    rw [hvalues, List.forall₂_map_right_iff, List.forall₂_same]
    intro s hs
    by_cases hempty : s = ""
    · rw [if_pos hempty]
      exact iff_of_true rfl hempty
    · rw [if_neg hempty]
      refine iff_of_false ?_ hempty
      exact Option.isSome_iff_ne_none.1 (readAs_isSome name (mem_present.2 ⟨hs, hempty⟩))
  case verbatim =>
    intro h
    rw [hvalues, readType_of_verbatim h]
    rfl
  case ints =>
    intro h hints
    rw [hvalues, readType_of_ints h hints]
    rfl
  case floats =>
    intro h hints hfloats
    rw [hvalues, readType_of_floats h hints hfloats]
    rfl
  case texts =>
    intro _ hfloats
    rw [hvalues, readType_of_not_read hfloats]
    rfl
  case string_of_not_read =>
    intro hfloats
    -- the field that is no number is a text in the column
    obtain ⟨s, hs, hne⟩ : ∃ s ∈ fields, s ≠ "" := by
      by_contra hnone
      exact hfloats fun s hs hne => absurd ⟨s, hs, hne⟩ hnone
    refine Classified.columnType_eq_string_iff.2 (.inr (.inl ⟨s, List.reduceOption_mem_iff.2 ?_⟩))
    rw [hvalues, readType_of_not_read hfloats]
    exact List.mem_map.2 ⟨s, hs, if_neg hne⟩

end Delimited

namespace DataFile
open Delimited

theorem run_load (options : Options) (tree : FileTree) (file : DataFile) :
    ((load options file : StateM FileTree Source).run tree).1 =
      match tree.read file.path with
      | .error e => ⟨file.path, file.kind, .error (unreadable file.path e)⟩
      | .ok content => .ofContent options file.kind (file.path, content.toList) := by
  unfold load
  change (StateT.run (match tree.read file.path with
    | .error e => pure ⟨file.path, file.kind, .error (unreadable file.path e)⟩
    | .ok bytes => pure (.ofContent options file.kind (file.path, bytes.toList)) : StateM FileTree Source) tree).1 = _
  cases tree.read file.path <;> rfl

/-- A file that cannot be read as a whole, or has a record that cannot be, or has a name twice, gives an error and no
    table. Any other gives a table with a row for each record and a column for each name, in their order. -/
theorem load_of_records (options : Options) (tree : FileTree) (file : DataFile) :
    let loaded := ((load options file : StateM FileTree Source).run tree).1.table
    (∀ e, tree.read file.path = .error e → loaded = .error (unreadable file.path e)) ∧
      ∀ content, tree.read file.path = .ok content →
        let rs := rows options.delimiter content.toList
        let width := rs.head?.elim 0 fun r => r.fields.length
        (∀ r ∈ rs, ∀ f, r.texts width = .error f →
          ∃ first, loaded = .error ((Unreadable.fault first).error file.path)) ∧
        ∀ records, List.Forall₂ (fun r record => r.texts width = .ok record) rs records →
          let names := if options.hasHeader then records.headD [] else numberedNames (records.headD []).length
          let body := if options.hasHeader then records.tail else records
          (∀ record ∈ records, record.length = names.length) ∧ (options.hasHeader = false → names.Nodup) ∧
            (¬names.Nodup → ∃ name, 1 < names.count name ∧
              loaded = .error ((Unreadable.misfit (.duplicate name)).error file.path)) ∧
            (names.Nodup → ∃ t, loaded = .ok t ∧ t.names = names ∧ t.rowCount = body.length ∧
              ∀ i name, names[i]? = some name → ∃ c, t.columns[i]? = some c ∧
                Loaded name (body.map fun record => record.getD i "") c) := by
  intro loaded
  have hload : loaded = _ := congrArg Source.table (run_load options tree file)
  refine ⟨?_, ?_⟩
  · intro e hread
    rw [hload, hread]
  · intro content hread rs width
    have htable : loaded = (table options content.toList).mapError (Unreadable.error file.path) := by
      rw [hload, hread]
      rfl
    refine ⟨?_, ?_⟩
    · intro r hr f hfault
      obtain ⟨first, hfirst⟩ := exists_fault_of_mem hr hfault
      exact ⟨first, by rw [htable, table, hfirst]; rfl⟩
    · intro records hrecords names body
      have htexts : texts rs = .ok records := mapM_eq_ok_iff.2 hrecords
      have hheading : heading options.hasHeader records = (names, body) := heading_eq options.hasHeader records
      have hwidth := length_of_heading hheading htexts
      rw [table_of_texts htexts] at htable
      refine ⟨hwidth, ?_, ?_, ?_⟩
      · intro hheader
        have hnumbered : names = numberedNames _ := if_neg (by rw [hheader]; exact Bool.false_ne_true)
        rw [hnumbered]
        exact nodup_numberedNames _
      · intro hnames
        obtain ⟨name, hname, herror⟩ := tableOfTexts_of_not_nodup hheading hwidth hnames
        exact ⟨name, hname, by rw [htable, herror]; rfl⟩
      · intro hnames
        refine ⟨tableOfRows names body, ?_, names_tableOfRows names body, ?_, ?_⟩
        · rw [htable, tableOfTexts_of_nodup hheading hwidth hnames]
          rfl
        · apply rowCount_tableOfRows
          intro hnone
          exact body_eq_nil (ne_nil_of_texts htexts) (hnone ▸ hheading)
        · intro i name hi
          exact ⟨_, getElem?_columns_tableOfRows body hi, loaded_column name _⟩

/-- A column of numbers with an empty field between them and one that keeps its texts, a file without names, and files
    that give no table. -/
theorem load_of_records_mixed :
    let tree (content : ByteArray) : FileTree :=
      { FileTree.empty with entries := [(["a", "work"], .file content), (["work"], .directory)] }
    let loaded (options : Options) (path : String) (content : ByteArray) : Except Error Table :=
      ((load options ⟨path, .vertex⟩ : StateM FileTree Source).run (tree content)).1.table
    let typed := "zip:string|x:int\n007|1\n|\n7|0.5\n".toUTF8
    let untyped := "007,x\n7,\n".toUTF8
    let twice := "a|b|a\n1|2|3\n".toUTF8
    let ragged := "a|b\n1\n".toUTF8
    (∃ t, loaded .standard "a" typed = .ok t ∧ t.names = ["zip:string", "x:int"] ∧ t.rowCount = 3 ∧
        (∃ c, t.columns[0]? = some c ∧ c.values = [some (.text "007"), none, some (.text "7")]) ∧
        ∃ c, t.columns[1]? = some c ∧ c.declared = some .int ∧ c.values = [some (.float 1), none, some (.float 0.5)]) ∧
      (∃ t, loaded ⟨44, false⟩ "a" untyped = .ok t ∧ t.names = ["column_0", "column_1"] ∧ t.rowCount = 2) ∧
      (∃ name, 1 < ["a", "b", "a"].count name ∧
        loaded .standard "a" twice = .error ((Unreadable.misfit (.duplicate name)).error "a")) ∧
      (∃ first, loaded .standard "a" ragged = .error ((Unreadable.fault first).error "a")) ∧
      loaded .standard "" typed = .error (unreadable "" .notFound) := by
  intro tree loaded typed untyped twice ragged
  have hread : ∀ content, (tree content).read "a" = .ok content := by
    have hsplit : "a".splitOn "/" = ["a"] := by cbv
    intro content
    have hlocate : (tree content).locate "a" = .ok ["a", "work"] := by
      unfold FileTree.locate
      rw [hsplit]
      rfl
    unfold FileTree.read FileTree.find
    rw [hlocate]
    rfl
  refine ⟨?_, ?_, ?_, ?_, ?_⟩
  · have htexts : texts (rows 124 typed.toList) = .ok [["zip:string", "x:int"], ["007", "1"], ["", ""], ["7", "0.5"]] := by
      decide +kernel
    obtain ⟨-, hdelivered⟩ := (load_of_records .standard (tree typed) ⟨"a", .vertex⟩).2 typed (hread typed)
    obtain ⟨-, -, -, htable⟩ := hdelivered _ (mapM_eq_ok_iff.1 htexts)
    obtain ⟨t, ht, hnames, hrows, hcolumns⟩ := htable (by decide)
    obtain ⟨zip, hzip, hzips⟩ := hcolumns 0 "zip:string" rfl
    obtain ⟨x, hx, hxs⟩ := hcolumns 1 "x:int" rfl
    refine ⟨t, ht, hnames, hrows, ⟨zip, hzip, ?_⟩, x, hx, ?_, ?_⟩
    · rw [hzips.verbatim (by decide +kernel)]
      decide +kernel
    · rw [hxs.declared_eq]
      decide +kernel
    · rw [hxs.floats (by decide +kernel) (by decide +kernel) (by decide +kernel)]
      decide +kernel
  · have htexts : texts (rows 44 untyped.toList) = .ok [["007", "x"], ["7", ""]] := by decide +kernel
    obtain ⟨-, hdelivered⟩ := (load_of_records ⟨44, false⟩ (tree untyped) ⟨"a", .vertex⟩).2 untyped (hread untyped)
    obtain ⟨-, hnumbered, -, htable⟩ := hdelivered _ (mapM_eq_ok_iff.1 htexts)
    obtain ⟨t, ht, hnames, hrows, -⟩ := htable (hnumbered rfl)
    exact ⟨t, ht, hnames, hrows⟩
  · have htexts : texts (rows 124 twice.toList) = .ok [["a", "b", "a"], ["1", "2", "3"]] := by decide +kernel
    obtain ⟨-, hdelivered⟩ := (load_of_records .standard (tree twice) ⟨"a", .vertex⟩).2 twice (hread twice)
    obtain ⟨-, -, htwice, -⟩ := hdelivered _ (mapM_eq_ok_iff.1 htexts)
    exact htwice (by decide)
  · have hshort : ∃ r ∈ rows 124 ragged.toList,
        r.texts ((rows 124 ragged.toList).head?.elim 0 fun r => r.fields.length) = .error (.unequal ⟨4, 2, 1⟩ 1 2) := by
      decide +kernel
    obtain ⟨r, hr, hfault⟩ := hshort
    obtain ⟨hfails, -⟩ := (load_of_records .standard (tree ragged) ⟨"a", .vertex⟩).2 ragged (hread ragged)
    exact hfails r hr _ hfault
  · exact (load_of_records .standard (tree typed) ⟨"", .vertex⟩).1 .notFound rfl

end DataFile
end GraphProfile
