import GraphProfile.Proofs.Stacks

set_option autoImplicit false

namespace GraphProfile.Table

theorem push_eq_ok_iff {t u : Table} {c : Column} :
    t.push c = .ok u ↔ c.length = t.rowCount ∧ c.name ∉ t.names ∧ u = { t with columns := t.columns ++ [c] } := by
  rw [push]
  split
  · rename_i hlength
    simp [hlength]
  · rename_i hlength
    split
    · rename_i hname
      simp [hname]
    · rename_i hname
      simp [not_not.1 hlength, hname, eq_comm]

/-- The length is what a column is refused for, if both are wrong. -/
theorem push_eq_error_iff {t : Table} {c : Column} {m : Misfit} :
    t.push c = .error m ↔
      c.length ≠ t.rowCount ∧ m = .length c.name c.length t.rowCount ∨
        c.length = t.rowCount ∧ c.name ∈ t.names ∧ m = .duplicate c.name := by
  rw [push]
  split
  · rename_i hlength
    simp [hlength, eq_comm]
  · rename_i hlength
    split
    · rename_i hname
      simp [not_not.1 hlength, hname, eq_comm]
    · rename_i hname
      simp [not_not.1 hlength, hname]

theorem nodup_names_push {t : Table} (ht : t.names.Nodup) {c : Column} (hname : c.name ∉ t.names) :
    (t.names ++ [c.name]).Nodup := by
  rw [← List.concat_eq_append]
  exact ht.concat hname

theorem names_append (t : Table) (cs : List Column) :
    names { t with columns := t.columns ++ cs } = t.names ++ cs.map Column.name :=
  List.map_append

theorem wellFormed_of_push {t u : Table} {c : Column} (ht : t.WellFormed) (h : t.push c = .ok u) : u.WellFormed := by
  obtain ⟨hlength, hname, rfl⟩ := push_eq_ok_iff.1 h
  refine ⟨?_, ?_⟩
  · rw [names_append]
    exact nodup_names_push ht.1 hname
  · intro d hd
    rcases List.mem_append.1 hd with hold | hnew
    · exact ht.2 d hold
    · rw [List.mem_singleton.1 hnew]
      exact hlength

theorem foldlM_push_eq_ok_iff {cs : List Column} {t u : Table} (ht : t.names.Nodup) :
    cs.foldlM push t = .ok u ↔
      (∀ c ∈ cs, c.length = t.rowCount) ∧ (t.names ++ cs.map Column.name).Nodup ∧
        u = { t with columns := t.columns ++ cs } := by
  induction cs generalizing t with
  | nil => simp [pure, Except.pure, ht, eq_comm]
  | cons c cs ih =>
    rw [List.foldlM_cons, List.forall_mem_cons, List.map_cons, List.append_cons t.names, List.append_cons t.columns]
    cases hpush : t.push c with
    | ok v =>
      obtain ⟨hlength, hname, rfl⟩ := push_eq_ok_iff.1 hpush
      have hnext := ih (names_append t [c] ▸ nodup_names_push ht hname)
      rw [names_append] at hnext
      rw [and_iff_right hlength]
      exact hnext
    | error m =>
      refine iff_of_false (fun h => by cases h) ?_
      rintro ⟨⟨hlength, -⟩, hnames, -⟩
      rcases push_eq_error_iff.1 hpush with ⟨hne, -⟩ | ⟨-, hmem, -⟩
      · exact hne hlength
      · have hdisjoint := (List.nodup_append.1 (List.nodup_append.1 hnames).1).2.2
        exact hdisjoint c.name hmem c.name (List.mem_singleton_self _) rfl

theorem foldlM_push_eq_error {cs : List Column} {t : Table} {m : Misfit} (h : cs.foldlM push t = .error m) :
    ∃ before c after u, cs = before ++ c :: after ∧ before.foldlM push t = .ok u ∧ u.push c = .error m := by
  induction cs generalizing t with
  | nil => cases h
  | cons c cs ih =>
    rw [List.foldlM_cons] at h
    cases hpush : t.push c with
    | error e =>
      rw [hpush] at h
      cases h
      exact ⟨[], c, cs, t, rfl, rfl, hpush⟩
    | ok v =>
      rw [hpush] at h
      obtain ⟨before, d, after, u, rfl, hbefore, hd⟩ := ih h
      refine ⟨c :: before, d, after, u, rfl, ?_, hd⟩
      rw [List.foldlM_cons, hpush]
      exact hbefore

theorem length_eq_head_iff {cs : List Column} :
    (∀ c ∈ cs, c.length = cs.head?.elim 0 Column.length) ↔ ∀ c ∈ cs, ∀ d ∈ cs, c.length = d.length := by
  constructor
  · intro h c hc d hd
    rw [h c hc, h d hd]
  · intro h c hc
    cases cs with
    | nil => cases hc
    | cons d cs => exact h c hc d List.mem_cons_self

theorem ofColumns_eq_ok_iff {cs : List Column} {t : Table} :
    ofColumns cs = .ok t ↔
      (∀ c ∈ cs, ∀ d ∈ cs, c.length = d.length) ∧ (cs.map Column.name).Nodup ∧
        t = ⟨cs, cs.head?.elim 0 Column.length⟩ := by
  have hempty : (empty (cs.head?.elim 0 Column.length)).names.Nodup := List.nodup_nil
  rw [ofColumns, foldlM_push_eq_ok_iff hempty, ← length_eq_head_iff]
  rfl

theorem ofColumns_eq_duplicate {cs : List Column} (hlengths : ∀ c ∈ cs, ∀ d ∈ cs, c.length = d.length)
    (hnames : ¬(cs.map Column.name).Nodup) :
    ∃ name, 1 < (cs.map Column.name).count name ∧ ofColumns cs = .error (.duplicate name) := by
  cases hcolumns : ofColumns cs with
  | ok t => exact absurd (ofColumns_eq_ok_iff.1 hcolumns).2.1 hnames
  | error m =>
    have hall := length_eq_head_iff.2 hlengths
    have hempty : (empty (cs.head?.elim 0 Column.length)).names.Nodup := List.nodup_nil
    obtain ⟨before, c, after, u, rfl, hbefore, hc⟩ := foldlM_push_eq_error hcolumns
    obtain ⟨-, -, rfl⟩ := (foldlM_push_eq_ok_iff hempty).1 hbefore
    rcases push_eq_error_iff.1 hc with ⟨hlength, -⟩ | ⟨-, hname, rfl⟩
    · exact absurd (hall c (by simp)) hlength
    · refine ⟨c.name, ?_, rfl⟩
      have hcount : 0 < (before.map Column.name).count c.name := List.count_pos_iff.2 hname
      rw [List.map_append, List.map_cons, List.count_append, List.count_cons_self]
      omega

theorem wellFormed_of_ofColumns {cs : List Column} {t : Table} (h : ofColumns cs = .ok t) : t.WellFormed := by
  obtain ⟨hlengths, hnames, rfl⟩ := ofColumns_eq_ok_iff.1 h
  refine ⟨hnames, ?_⟩
  intro c hc
  cases cs with
  | nil => cases hc
  | cons d cs => exact hlengths c hc d List.mem_cons_self

/-- A push into a table that is kept in one place. -/
def pushInto (c : Column) : ExceptT Misfit (StateM Table) Unit := do
  let t ← get
  match t.push c with
  | .ok u => set u
  | .error m => throw m

theorem run_pushInto (t : Table) (c : Column) :
    (pushInto c).run.run t = (match t.push c with | .ok u => (.ok (), u) | .error m => (.error m, t)) := by
  unfold pushInto
  change (StateT.run (ExceptT.run (match t.push c with | .ok u => set u | .error m => throw m)) t : Id _) = _
  cases t.push c <;> rfl

/-- The tables that can be built, from none or from columns at once. -/
inductive Built : Table → Prop where
  | empty (rows : ℕ) : Built (empty rows)
  | ofColumns {cs : List Column} {t : Table} (h : ofColumns cs = .ok t) : Built t
  /-- Whether the column fits or not. -/
  | push {t : Table} (ht : Built t) (c : Column) : Built ((pushInto c).run.run t).2
  | partition {t : Table} (ht : Built t) {labelColumn : String} {parts : List Partition}
      (h : t.partition? labelColumn = some parts) {p : Partition} (hp : p ∈ parts) : Built p.table
  | stack {tables : List Table} (h : ∀ t ∈ tables, Built t) : Built (stack tables)

theorem wellFormed_of_mem_partitions {t : Table} (ht : t.WellFormed) {labelColumn : String} {parts : List Partition}
    (h : t.partition? labelColumn = some parts) {p : Partition} (hp : p ∈ parts) : p.table.WellFormed := by
  obtain ⟨labels, -, rfl⟩ := Option.map_eq_some_iff.1 h
  obtain ⟨group, -, rfl⟩ := List.mem_map.1 hp
  exact wellFormed_take ht.1 group.2

theorem wellFormed_of_built {t : Table} (h : Built t) : t.WellFormed := by
  induction h with
  | empty rows => exact ⟨List.nodup_nil, fun c hc => by cases hc⟩
  | ofColumns h => exact wellFormed_of_ofColumns h
  | @push t _ c ih =>
    rw [run_pushInto]
    cases hpush : t.push c with
    | ok u => exact wellFormed_of_push ih hpush
    | error m => exact ih
  | partition _ h hp ih => exact wellFormed_of_mem_partitions ih h hp
  | stack _ ih => exact wellFormed_stack ih

theorem column?_eq_some_iff {t : Table} (ht : t.names.Nodup) {name : String} {c : Column} :
    t.column? name = some c ↔ c ∈ t.columns ∧ c.name = name := by
  constructor
  · exact column?_eq_some
  · rintro ⟨hc, rfl⟩
    exact column?_of_mem ht hc

/-- However a table is built, its columns have its number of rows and distinct names, and each is found under its own
    name only. A column is refused if it has another length or a name that is taken, and then the table stays as it was;
    any other column comes last. Columns make a table at once if they are of one length and have distinct names, and
    then in their order. -/
theorem built_table {t : Table} (h : Built t) :
    t.names.Nodup ∧ (∀ c ∈ t.columns, c.length = t.rowCount) ∧
      (∀ name c, t.column? name = some c ↔ c ∈ t.columns ∧ c.name = name) ∧
      (∀ c,
        let pushed := (pushInto c).run.run t
        ((∃ m, pushed.1 = .error m) ↔ c.length ≠ t.rowCount ∨ c.name ∈ t.names) ∧
          ((∃ m, pushed.1 = .error m) → pushed.2 = t) ∧
          (pushed.1 = .ok () → pushed.2 = { t with columns := t.columns ++ [c] })) ∧
      ∀ cs u, ofColumns cs = .ok u ↔
        (∀ c ∈ cs, ∀ d ∈ cs, c.length = d.length) ∧ (cs.map Column.name).Nodup ∧
          u = ⟨cs, cs.head?.elim 0 Column.length⟩ := by
  obtain ⟨hnames, hlengths⟩ := wellFormed_of_built h
  refine ⟨hnames, hlengths, fun name c => column?_eq_some_iff hnames, ?_, fun cs u => ofColumns_eq_ok_iff⟩
  intro c pushed
  have hpushed : pushed = _ := run_pushInto t c
  rw [hpushed]
  cases hpush : t.push c with
  | ok u =>
    obtain ⟨hlength, hname, rfl⟩ := push_eq_ok_iff.1 hpush
    have hfits : ¬(c.length ≠ t.rowCount ∨ c.name ∈ t.names) := fun hbad => hbad.elim (absurd hlength) hname
    refine ⟨iff_of_false ?_ hfits, ?_, fun _ => rfl⟩
    · rintro ⟨m, hm⟩
      cases hm
    · rintro ⟨m, hm⟩
      cases hm
  | error m =>
    refine ⟨iff_of_true ⟨m, rfl⟩ ?_, fun _ => rfl, fun hok => by cases hok⟩
    rcases push_eq_error_iff.1 hpush with ⟨hlength, -⟩ | ⟨-, hname, -⟩
    · exact .inl hlength
    · exact .inr hname

/-- A partition on top of a table to which one column was pushed, and three columns more. -/
theorem built_table_stacked :
    let people : List Column :=
      [⟨"kind", none, [some (.text "a"), none, some (.text "a")]⟩, ⟨"n", some .int, [some (.int 1), some (.int 2), none]⟩]
    let part : Table :=
      ⟨[⟨"kind", none, [some (.text "a"), some (.text "a")]⟩, ⟨"n", some .int, [some (.int 1), none]⟩], 2⟩
    let one : Table := ((pushInto ⟨"size", none, [some (.float 1)]⟩).run.run (empty 1)).2
    let t := stack [part, one]
    let fitting : Column := ⟨"m", none, [none, none, none]⟩
    Built t ∧ t.names = ["kind", "n", "size"] ∧ t.names.Nodup ∧ (∀ c ∈ t.columns, c.length = 3) ∧
      (∃ c, t.column? "size" = some c ∧ c.values = [none, none, some (.float 1)]) ∧
      (∃ m, ((pushInto { fitting with name := "n" }).run.run t).1 = .error m) ∧
      ((pushInto { fitting with name := "n" }).run.run t).2 = t ∧
      (∃ m, ((pushInto { fitting with values := [none] }).run.run t).1 = .error m) ∧
      ((pushInto fitting).run.run t).2.columns = t.columns ++ [fitting] ∧ ofColumns people = .ok ⟨people, 3⟩ := by
  intro people part one t fitting
  have hpeople : ofColumns people = .ok ⟨people, 3⟩ := by decide +kernel
  have hparts : (⟨people, 3⟩ : Table).partition? "kind" = some [⟨"a", "kind", part⟩] := by decide +kernel
  have hbuilt : Built t := by
    refine .stack ?_
    intro u hu
    rcases List.mem_cons.1 hu with rfl | hu
    · exact .partition (.ofColumns hpeople) hparts (List.mem_singleton_self _)
    · rw [List.mem_singleton.1 hu]
      exact .push (.empty 1) _
  have ht : t.names = ["kind", "n", "size"] := by decide +kernel
  obtain ⟨hnames, hlengths, hfound, hpush, -⟩ := built_table hbuilt
  obtain ⟨htaken, hsame, -⟩ := hpush { fitting with name := "n" }
  obtain ⟨hshort, -, -⟩ := hpush { fitting with values := [none] }
  obtain ⟨-, -, hlast⟩ := hpush fitting
  have hrefused := htaken.2 (.inr (by rw [ht]; decide))
  refine ⟨hbuilt, ht, hnames, hlengths, ?_, hrefused, hsame hrefused, hshort.2 (.inl (by decide)), ?_, hpeople⟩
  · exact ⟨⟨"size", none, [none, none, some (.float 1)]⟩, (hfound _ _).2 ⟨by decide +kernel, rfl⟩, rfl⟩
  · rw [hlast rfl]

end GraphProfile.Table
