import GraphProfile.Proofs.Shelves

set_option autoImplicit false

namespace GraphProfile
open Std

section
variable {κ : Type} [Ord κ] [TransOrd κ] [LawfulEqOrd κ] [DecidableEq κ]

def sumValues (m : ExtTreeMap κ ℕ) : ℕ := (m.toList.map Prod.snd).sum

theorem perm_others {m m' : ExtTreeMap κ ℕ} {k : κ} (h : ∀ j, j ≠ k → m'[j]? = m[j]?) :
    (m'.toList.filter fun e => ¬e.1 = k).Perm (m.toList.filter fun e => ¬e.1 = k) := by
  have hnodup (m : ExtTreeMap κ ℕ) : (m.toList.filter fun e => ¬e.1 = k).Nodup :=
    (List.Nodup.of_map Prod.fst (nodup_keys_toList m)).filter _
  rw [List.perm_ext_iff_of_nodup (hnodup m') (hnodup m)]
  rintro ⟨j, n⟩
  simp only [List.mem_filter, decide_eq_true_eq, ExtTreeMap.mem_toList_iff_getElem?_eq_some]
  constructor
  · rintro ⟨hget, hj⟩
    exact ⟨h j hj ▸ hget, hj⟩
  · rintro ⟨hget, hj⟩
    exact ⟨(h j hj).symm ▸ hget, hj⟩

theorem sumValues_eq (m : ExtTreeMap κ ℕ) (k : κ) :
    sumValues m = m[k]?.getD 0 + ((m.toList.filter fun e => ¬e.1 = k).map Prod.snd).sum := by
  have hsplit := ((List.filter_append_perm (fun e : κ × ℕ => decide (e.1 = k)) m.toList).map Prod.snd).sum_eq
  rw [List.map_append, List.sum_append, filter_key_toList] at hsplit
  rw [sumValues, ← hsplit]
  congr 1
  · cases m[k]? with
    | none => rfl
    | some n => exact List.sum_singleton
  · simp only [decide_not]

/-- A write changes the sum by what is new under its key. -/
theorem sumValues_write {m m' : ExtTreeMap κ ℕ} {k : κ} (h : ∀ j, j ≠ k → m'[j]? = m[j]?) :
    sumValues m' + m[k]?.getD 0 = sumValues m + m'[k]?.getD 0 := by
  rw [sumValues_eq m k, sumValues_eq m' k, ((perm_others h).map Prod.snd).sum_eq]
  omega

end

namespace Section

theorem getElem?_labelCounts_addRows (s : Section) (label : String) (rows : ℕ) (label' : String) :
    (s.addRows label rows).labelCounts[label']? =
      if label = label' then some (s.labelCounts[label']?.getD 0 + rows) else s.labelCounts[label']? := by
  rw [addRows, ExtTreeMap.getElem?_alter]
  by_cases h : label = label'
  · simp [h]
  · simp [h]

theorem sumValues_addRows (s : Section) (label : String) (rows : ℕ) :
    sumValues (s.addRows label rows).labelCounts = sumValues s.labelCounts + rows := by
  have hwrite : sumValues (s.addRows label rows).labelCounts + s.labelCounts[label]?.getD 0 =
      sumValues s.labelCounts + (s.addRows label rows).labelCounts[label]?.getD 0 := by
    apply sumValues_write
    intro label' hne
    rw [getElem?_labelCounts_addRows, if_neg hne.symm]
  rw [getElem?_labelCounts_addRows, if_pos rfl, Option.getD_some] at hwrite
  omega

/-- The two ways to place a record differ only in what they give back. -/
theorem exchangeRecord_eq (s : Section) (label name : String) (r : Record) :
    s.exchangeRecord label name r = (s.record? label name, s.setRecord label name r) := by
  have hattributes : s.attributes.insert label ((s.attributes[label]?.getD ∅).insert name r) =
      s.attributes.alter label fun found => some ((found.getD ∅).insert name r) := by
    apply ExtTreeMap.ext_getElem?
    intro label'
    rw [ExtTreeMap.getElem?_insert, ExtTreeMap.getElem?_alter]
  rw [exchangeRecord, setRecord, record?, hattributes]
  cases s.attributes[label]? with
  | none => exact congrArg (Prod.mk · _) ExtTreeMap.getElem?_empty
  | some found => rfl

end Section

namespace Profile

inductive Entry where
  | rows (k : Kind) (label : String) (n : ℕ)
  | record (k : Kind) (label name : String) (r : Record)
  | records (k : Kind) (label : String) (found : Attributes)

namespace Entry

def kind : Entry → Kind
  | .rows k _ _ => k
  | .record k _ _ _ => k
  | .records k _ _ => k

def rows? (k : Kind) (label : String) : Entry → Option ℕ
  | .rows k' label' n => if k' = k ∧ label' = label then some n else none
  | _ => none

def record? (k : Kind) (label name : String) : Entry → Option Record
  | .rows _ _ _ => none
  | .record k' label' name' r => if k' = k ∧ label' = label ∧ name' = name then some r else none
  | .records k' label' found => if k' = k ∧ label' = label then found[name]? else none

end Entry

def enter (p : Profile) : Entry → Profile
  | .rows k label n => p.addRows k label n
  | .record k label name r => p.setRecord k label name r
  | .records k label found => p.setRecords k label found

def ofEntries (entries : List Entry) : Profile := entries.foldl enter empty

section
variable (p : Profile) (k j : Kind) (label : String)

theorem get_addRows (rows : ℕ) : (p.addRows k label rows).get j = if k = j then (p.get j).addRows label rows else p.get j :=
  PerKind.get_modify p.sections k j _

theorem get_setRecord (name : String) (r : Record) :
    (p.setRecord k label name r).get j = if k = j then (p.get j).setRecord label name r else p.get j :=
  PerKind.get_modify p.sections k j _

theorem get_setRecords (records : Attributes) :
    (p.setRecords k label records).get j = if k = j then (p.get j).setRecords label records else p.get j :=
  PerKind.get_modify p.sections k j _

theorem get_enter_of_ne {e : Entry} (h : e.kind ≠ k) : (p.enter e).get k = p.get k := by
  cases e with
  | rows _ _ _ => exact (get_addRows p _ k _ _).trans (if_neg h)
  | record _ _ _ _ => exact (get_setRecord p _ k _ _ _).trans (if_neg h)
  | records _ _ _ => exact (get_setRecords p _ k _ _).trans (if_neg h)

theorem attributes_addRows (rows : ℕ) : ((p.addRows k label rows).get j).attributes = (p.get j).attributes := by
  rw [get_addRows]
  split <;> rfl

theorem counts_setRecord (name : String) (r : Record) :
    ((p.setRecord k label name r).get j).total = (p.get j).total ∧
      ((p.setRecord k label name r).get j).labelCounts = (p.get j).labelCounts := by
  rw [get_setRecord]
  split <;> exact ⟨rfl, rfl⟩

theorem counts_setRecords (records : Attributes) :
    ((p.setRecords k label records).get j).total = (p.get j).total ∧
      ((p.setRecords k label records).get j).labelCounts = (p.get j).labelCounts := by
  rw [get_setRecords]
  split
  · exact ⟨Section.total_setRecords .., Section.labelCounts_setRecords ..⟩
  · exact ⟨rfl, rfl⟩

theorem exchangeRecord_eq (name : String) (r : Record) :
    p.exchangeRecord k label name r = (p.record? k label name, p.setRecord k label name r) := by
  rw [exchangeRecord, Section.exchangeRecord_eq, record?, setRecord]
  cases k <;> rfl

end

theorem labelCounts_enter (p : Profile) (e : Entry) (k : Kind) (label : String) :
    ((p.enter e).get k).labelCounts[label]? =
      (e.rows? k label).elim (p.get k).labelCounts[label]? fun n =>
        some ((p.get k).labelCounts[label]?.getD 0 + n) := by
  cases e with
  | rows k' label' n =>
    rw [enter, get_addRows, Entry.rows?]
    by_cases hk : k' = k
    · by_cases hlabel : label' = label
      · simp [hk, hlabel, Section.getElem?_labelCounts_addRows]
      · simp [hk, hlabel, Section.getElem?_labelCounts_addRows]
    · simp [hk]
  | record k' label' name r => rw [enter, (counts_setRecord p k' k label' name r).2]; rfl
  | records k' label' found => rw [enter, (counts_setRecords p k' k label' found).2]; rfl

theorem record?_enter (p : Profile) (e : Entry) (k : Kind) (label name : String) :
    (p.enter e).record? k label name = (e.record? k label name).or (p.record? k label name) := by
  rw [record?, record?]
  cases e with
  | rows k' label' n =>
    rw [enter, Section.record?, attributes_addRows]
    rfl
  | record k' label' name' r =>
    rw [enter, get_setRecord, Entry.record?]
    by_cases hk : k' = k
    · rw [if_pos hk, Section.record?_setRecord]
      by_cases h : label' = label ∧ name' = name
      · rw [if_pos h, if_pos ⟨hk, h⟩, Option.some_or]
      · rw [if_neg h, if_neg (fun hall => h hall.2), Option.none_or]
    · rw [if_neg hk, if_neg (fun hall => hk hall.1), Option.none_or]
  | records k' label' found =>
    rw [enter, get_setRecords, Entry.record?]
    by_cases hk : k' = k
    · rw [if_pos hk, Section.record?_setRecords]
      by_cases h : label' = label
      · rw [if_pos h, if_pos ⟨hk, h⟩]
      · rw [if_neg h, if_neg (fun hall => h hall.2), Option.none_or]
    · rw [if_neg hk, if_neg (fun hall => hk hall.1), Option.none_or]

theorem total_enter {p : Profile} (h : ∀ k, (p.get k).total = sumValues (p.get k).labelCounts) (e : Entry) (k : Kind) :
    ((p.enter e).get k).total = sumValues ((p.enter e).get k).labelCounts := by
  cases e with
  | rows k' label n =>
    rw [enter, get_addRows]
    split
    · rw [Section.sumValues_addRows, ← h k]
      rfl
    · exact h k
  | record k' label name r =>
    obtain ⟨htotal, hcounts⟩ := counts_setRecord p k' k label name r
    rw [enter, htotal, hcounts, h k]
  | records k' label found =>
    obtain ⟨htotal, hcounts⟩ := counts_setRecords p k' k label found
    rw [enter, htotal, hcounts, h k]

theorem total_ofEntries (entries : List Entry) (k : Kind) :
    ((ofEntries entries).get k).total = sumValues ((ofEntries entries).get k).labelCounts := by
  have hempty : ∀ k, (empty.get k).total = sumValues (empty.get k).labelCounts := by
    intro k
    cases k <;> rfl
  exact List.foldlRecOn entries enter (motive := fun p : Profile => ∀ k, (p.get k).total = sumValues (p.get k).labelCounts)
    hempty (fun _ h e _ => total_enter h e) k

theorem ofEntries_concat (entries : List Entry) (e : Entry) : ofEntries (entries ++ [e]) = (ofEntries entries).enter e := by
  rw [ofEntries, List.foldl_append]
  rfl

theorem labelCounts_ofEntries (entries : List Entry) (k : Kind) (label : String) :
    ((ofEntries entries).get k).labelCounts[label]? = Shelf.addUp (entries.filterMap (Entry.rows? k label)) := by
  have hfold : ((ofEntries entries).get k).labelCounts[label]? =
      (entries.filterMap (Entry.rows? k label)).foldl (fun old n => some (old.getD 0 + n)) none := by
    induction entries using List.reverseRecOn with
    | nil => cases k <;> rfl
    | append_singleton entries e ih =>
      rw [ofEntries_concat, labelCounts_enter, ih, List.filterMap_append, List.foldl_append,
        List.filterMap_cons, List.filterMap_nil]
      cases e.rows? k label <;> rfl
  rw [hfold, Shelf.foldl_addUp, Shelf.addUp, Option.getD_none, Nat.zero_add]

theorem record?_ofEntries (entries : List Entry) (k : Kind) (label name : String) :
    (ofEntries entries).record? k label name = (entries.filterMap (Entry.record? k label name)).getLast? := by
  induction entries using List.reverseRecOn with
  | nil => cases k <;> rfl
  | append_singleton entries e ih =>
    rw [ofEntries_concat, record?_enter, ih, List.filterMap_append, List.getLast?_append,
      List.filterMap_cons, List.filterMap_nil]
    cases e.record? k label name <;> rfl

/-- The counts of a label add up to the total, the last record of an attribute stands and is what its successor takes the
    place of, and an entry leaves all else as it was. -/
theorem ofEntries_adds_up (entries : List Entry) :
    let p := ofEntries entries
    (∀ k, (p.get k).total = ((p.get k).labelCounts.toList.map Prod.snd).sum) ∧
      (∀ k label, (p.get k).labelCounts[label]? = Shelf.addUp (entries.filterMap (Entry.rows? k label))) ∧
      (∀ k label name, p.record? k label name = (entries.filterMap (Entry.record? k label name)).getLast?) ∧
      (∀ k label name r, p.exchangeRecord k label name r =
        ((entries.filterMap (Entry.record? k label name)).getLast?, ofEntries (entries ++ [.record k label name r]))) ∧
      (∀ (e : Entry) k, e.kind ≠ k → (p.enter e).get k = p.get k) ∧
      (∀ k label n j, ((p.addRows k label n).get j).attributes = (p.get j).attributes) ∧
      (∀ k label name r j, ((p.setRecord k label name r).get j).total = (p.get j).total ∧
        ((p.setRecord k label name r).get j).labelCounts = (p.get j).labelCounts) ∧
      ∀ k label found j, ((p.setRecords k label found).get j).total = (p.get j).total ∧
        ((p.setRecords k label found).get j).labelCounts = (p.get j).labelCounts := by
  intro p
  refine ⟨total_ofEntries entries, labelCounts_ofEntries entries, record?_ofEntries entries, ?_, ?_, ?_, ?_, ?_⟩
  · intro k label name r
    rw [exchangeRecord_eq, record?_ofEntries, ofEntries_concat]
    rfl
  · exact fun _ k h => get_enter_of_ne p k h
  · exact fun k label n j => attributes_addRows p k j label n
  · exact fun k label name r j => counts_setRecord p k j label name r
  · exact fun k label found j => counts_setRecords p k j label found

/-- One label for vertices and for edges, with a record that is replaced twice. -/
theorem ofEntries_adds_up_overlapping :
    let first := Record.empty .int
    let last : Record := { first with count := 9 }
    let entries : List Entry := [.rows .vertex "P" 3, .record .vertex "P" "a" first, .rows .edge "P" 0,
      .records .vertex "P" (.ofList [("a", last), ("b", first)]), .rows .vertex "P" 4, .rows .vertex "Q" 1]
    let p := ofEntries entries
    (p.get .vertex).total = 8 ∧ (p.get .vertex).labelCounts["P"]? = some 7 ∧ (p.get .edge).labelCounts["P"]? = some 0 ∧
      (p.get .edge).labelCounts["Q"]? = none ∧ p.record? .edge "P" "a" = none ∧
      (p.exchangeRecord .vertex "P" "a" first).1 = some last ∧
      (Entry.record .vertex "P" "a" first).kind ≠ .edge ∧
      (p.enter (.record .vertex "P" "a" first)).get .edge = p.get .edge := by
  intro first last entries p
  obtain ⟨htotal, hcounts, hrecords, hexchanged, hother, -⟩ := ofEntries_adds_up entries
  refine ⟨?_, hcounts .vertex "P", hcounts .edge "P", hcounts .edge "Q", hrecords .edge "P" "a", ?_, by decide, ?_⟩
  · exact (htotal .vertex).trans (by decide +kernel)
  · rw [hexchanged]
    decide +kernel
  · exact hother _ .edge (by decide)

end Profile
end GraphProfile
