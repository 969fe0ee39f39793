import GraphProfile.Proofs.AttributeNames

set_option autoImplicit false

/-!
# One attribute for each column

Data columns are filed one after the other, each under the name before the colon or, where that is taken, under its
whole header. Headers differ, so this gives every column a place of its own, but for one case: a header without a colon
is its own name before the colon, and where an earlier column has taken that name there is no other to go by. Then the
record that was there is lost.
-/
namespace GraphProfile.Partition
open Header

/-- What columns are filed under, after the attributes that are there. -/
def keysFrom (maxBins : ℕ) : Attributes → List Column → List String
  | _, [] => []
  | found, c :: cs => keyFor found c.name :: keysFrom maxBins (addAttribute maxBins found c) cs

def keys (maxBins : ℕ) (p : Partition) : List String := keysFrom maxBins ∅ p.dataColumns

/-- No column has for its header the name that an earlier column goes by. -/
def Apart (cs : List Column) : Prop := cs.Pairwise fun c d => base c.name ≠ d.name

instance (cs : List Column) : Decidable (Apart cs) := inferInstanceAs (Decidable (cs.Pairwise _))

theorem length_keysFrom (maxBins : ℕ) (found : Attributes) (cs : List Column) :
    (keysFrom maxBins found cs).length = cs.length := by
  induction cs generalizing found with
  | nil => rfl
  | cons c cs ih => rw [keysFrom, List.length_cons, List.length_cons, ih]

theorem keysFrom_append (maxBins : ℕ) (found : Attributes) (cs : List Column) (d : Column) :
    keysFrom maxBins found (cs ++ [d]) =
      keysFrom maxBins found cs ++ [keyFor (cs.foldl (addAttribute maxBins) found) d.name] := by
  induction cs generalizing found with
  | nil => rfl
  | cons c cs ih =>
    rw [List.cons_append, keysFrom, ih, keysFrom]
    rfl

section
variable (maxBins : ℕ) {cs : List Column}

theorem filed_append (d : Column) :
    filed maxBins (cs ++ [d]) =
      (filed maxBins cs).insert (keyFor (filed maxBins cs) d.name) (recordOf maxBins d) := by
  rw [filed, List.foldl_concat]
  rfl

theorem mem_filed_iff_mem_keysFrom (k : String) : k ∈ filed maxBins cs ↔ k ∈ keysFrom maxBins ∅ cs := by
  induction cs using List.reverseRecOn with
  | nil => exact iff_of_false Std.ExtTreeMap.not_mem_empty List.not_mem_nil
  | append_singleton cs d ih =>
    rw [mem_filed_append_iff, keysFrom_append, List.mem_append, List.mem_singleton, ih, or_comm, eq_comm]
    rfl

theorem exists_column_of_mem_filed {maxBins : ℕ} {k : String} (h : k ∈ filed maxBins cs) :
    ∃ c ∈ cs, k = c.name ∨ k = base c.name := by
  induction cs using List.reverseRecOn with
  | nil => exact absurd h Std.ExtTreeMap.not_mem_empty
  | append_singleton cs d ih =>
    rcases (mem_filed_append_iff maxBins cs d k).1 h with hnew | hold
    · rw [keyFor_eq] at hnew
      refine ⟨d, by simp, ?_⟩
      split at hnew
      · exact .inl hnew.symm
      · exact .inr hnew.symm
    · obtain ⟨c, hc, hk⟩ := ih hold
      exact ⟨c, List.mem_append_left _ hc, hk⟩

theorem keyFor_not_mem_filed_iff {d : Column} (hd : ∀ c ∈ cs, c.name ≠ d.name) :
    keyFor (filed maxBins cs) d.name ∉ filed maxBins cs ↔ ∀ c ∈ cs, base c.name ≠ d.name := by
  rw [keyFor_eq]
  by_cases hbase : base d.name ∈ filed maxBins cs
  · rw [if_pos hbase]
    constructor
    · intro hfree c hc heq
      exact hfree (heq ▸ base_mem_filed hc)
    · intro hall hmem
      obtain ⟨c, hc, hname | hname⟩ := exists_column_of_mem_filed hmem
      · exact hd c hc hname.symm
      · exact hall c hc hname.symm
  · rw [if_neg hbase]
    refine iff_of_true hbase ?_
    intro c hc heq
    rw [← heq, base_base] at hbase
    exact hbase (base_mem_filed hc)

theorem apart_append_iff (d : Column) : Apart (cs ++ [d]) ↔ Apart cs ∧ ∀ c ∈ cs, base c.name ≠ d.name := by
  rw [Apart, Apart, List.pairwise_append]
  simp

theorem size_filed_append (d : Column) :
    (filed maxBins (cs ++ [d])).size =
      if keyFor (filed maxBins cs) d.name ∈ filed maxBins cs then (filed maxBins cs).size
      else (filed maxBins cs).size + 1 := by
  rw [filed_append, Std.ExtTreeMap.size_insert]
  simp only [Std.ExtTreeMap.mem_iff_contains]

theorem size_filed_le (cs : List Column) : (filed maxBins cs).size ≤ cs.length := by
  induction cs using List.reverseRecOn with
  | nil => exact Nat.le_refl 0
  | append_singleton cs d ih =>
    rw [size_filed_append, List.length_append, List.length_singleton]
    split <;> omega

theorem nodup_append_singleton {α : Type} {l : List α} {a : α} : (l ++ [a]).Nodup ↔ l.Nodup ∧ a ∉ l := by
  rw [← List.concat_eq_append, List.nodup_concat, and_comm]

section
variable (hnames : (cs.map Column.name).Nodup)
include hnames

theorem size_filed_eq_iff : (filed maxBins cs).size = cs.length ↔ Apart cs := by
  induction cs using List.reverseRecOn with
  | nil => exact iff_of_true rfl List.Pairwise.nil
  | append_singleton cs d ih =>
    rw [List.map_append, List.map_singleton, nodup_append_singleton] at hnames
    have hd : ∀ c ∈ cs, c.name ≠ d.name := fun c hc heq => hnames.2 (heq ▸ List.mem_map_of_mem hc)
    have hle := size_filed_le maxBins cs
    rw [apart_append_iff, ← keyFor_not_mem_filed_iff maxBins hd, ← ih hnames.1, size_filed_append,
      List.length_append, List.length_singleton]
    split
    · rename_i htaken
      exact iff_of_false (by omega) fun h => h.2 htaken
    · rename_i hfree
      rw [and_iff_left hfree]
      omega

theorem nodup_keysFrom_iff : (keysFrom maxBins ∅ cs).Nodup ↔ Apart cs := by
  induction cs using List.reverseRecOn with
  | nil => exact iff_of_true List.nodup_nil List.Pairwise.nil
  | append_singleton cs d ih =>
    rw [List.map_append, List.map_singleton, nodup_append_singleton] at hnames
    have hd : ∀ c ∈ cs, c.name ≠ d.name := fun c hc heq => hnames.2 (heq ▸ List.mem_map_of_mem hc)
    rw [apart_append_iff, ← keyFor_not_mem_filed_iff maxBins hd, ← ih hnames.1, keysFrom_append,
      nodup_append_singleton, ← mem_filed_iff_mem_keysFrom]
    rfl

end

theorem getElem?_filed (hnodup : (keysFrom maxBins ∅ cs).Nodup) :
    ∀ e ∈ cs.zip (keysFrom maxBins ∅ cs), (filed maxBins cs)[e.2]? = some (recordOf maxBins e.1) := by
  induction cs using List.reverseRecOn with
  | nil => exact fun e he => absurd he List.not_mem_nil
  | append_singleton cs d ih =>
    rw [keysFrom_append, nodup_append_singleton] at hnodup
    rw [keysFrom_append, List.zip_append (length_keysFrom maxBins ∅ cs).symm]
    intro e he
    rw [filed_append, Std.ExtTreeMap.getElem?_insert]
    rcases List.mem_append.1 he with hold | hnew
    · have hne : keyFor (filed maxBins cs) d.name ≠ e.2 := fun heq => hnodup.2 (heq ▸ (List.of_mem_zip hold).2)
      rw [if_neg (by simpa using hne)]
      exact ih hnodup.1 e hold
    · rw [List.zip_cons_cons, List.zip_nil_left, List.mem_singleton] at hnew
      rw [hnew]
      exact if_pos (by simp [filed])

end

/-- There are as many records as data columns just if no column has for its header the name that an earlier one goes
    by. Then the columns go by different keys, and under each key there is the record of its column. -/
theorem attributes_apart_iff {p : Partition} (hnames : p.table.names.Nodup) (maxBins : ℕ) :
    let keys := p.keys maxBins
    (p.attributes maxBins).size ≤ p.dataColumns.length ∧ keys.length = p.dataColumns.length ∧
      (∀ k, k ∈ p.attributes maxBins ↔ k ∈ keys) ∧
      ((p.attributes maxBins).size = p.dataColumns.length ↔ Apart p.dataColumns) ∧
      (Apart p.dataColumns → keys.Nodup ∧
        ∀ e ∈ p.dataColumns.zip keys, (p.attributes maxBins)[e.2]? = some (recordOf maxBins e.1)) := by
  intro keys
  have hdistinct : (p.dataColumns.map Column.name).Nodup := hnames.sublist (List.filter_sublist.map Column.name)
  refine ⟨size_filed_le maxBins _, length_keysFrom maxBins ∅ _, mem_filed_iff_mem_keysFrom maxBins,
    size_filed_eq_iff maxBins hdistinct, ?_⟩
  intro hapart
  have hnodup := (nodup_keysFrom_iff maxBins hdistinct).2 hapart
  exact ⟨hnodup, getElem?_filed maxBins hnodup⟩

/-- Three columns with one name before the colon, of which the one without a colon comes first. -/
theorem attributes_apart_iff_shared :
    let kept : Column := ⟨"a:", none, [some (.float 0.5)]⟩
    let p : Partition := ⟨"A", ":LABEL", ⟨[⟨"a", none, [some (.text "x")]⟩, ⟨":LABEL", none, [some (.text "A")]⟩,
      ⟨"a:int", some .int, [some (.int 7)]⟩, kept, ⟨"b:float", some .float, [none]⟩], 1⟩⟩
    p.table.names.Nodup ∧ Apart p.dataColumns ∧ p.keys 10 = ["a", "a:int", "a:", "b"] ∧ (p.keys 10).Nodup ∧
      (p.attributes 10).size = 4 ∧ (p.attributes 10)["a:"]? = some (recordOf 10 kept) := by
  intro kept p
  have hnames : p.table.names.Nodup := by decide
  have hapart : Apart p.dataColumns := by decide +kernel
  have hkeys : p.keys 10 = ["a", "a:int", "a:", "b"] := by decide +kernel
  have hcolumns : (kept, "a:") ∈ p.dataColumns.zip ["a", "a:int", "a:", "b"] := by decide +kernel
  obtain ⟨-, -, -, hsize, hrest⟩ := attributes_apart_iff hnames 10
  obtain ⟨hnodup, hrecords⟩ := hrest hapart
  refine ⟨hnames, hapart, hkeys, hnodup, (hsize.2 hapart).trans (by decide +kernel), ?_⟩
  rw [hkeys] at hrecords
  exact hrecords _ hcolumns

/-- The column without a colon comes second, and the record of the first column is lost. -/
theorem attributes_overwritten :
    let p : Partition := ⟨"A", ":LABEL", ⟨[⟨":LABEL", none, [some (.text "A")]⟩, ⟨"a:int", some .int, [some (.int 7)]⟩,
      ⟨"a", none, [some (.text "x")]⟩], 1⟩⟩
    p.table.WellFormed ∧ p.dataColumns.length = 2 ∧ p.keys 10 = ["a", "a"] ∧ (p.attributes 10).size = 1 := by
  decide +kernel

end GraphProfile.Partition
