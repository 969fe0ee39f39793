import GraphProfile.Profile.Basic
import GraphProfile.Proofs.Maps
import Mathlib

set_option autoImplicit false

namespace GraphProfile.Section
open Std

/-- No label stands without a record. -/
def Occupied (s : Section) : Prop :=
  ∀ (label : String) (found : Attributes), s.attributes[label]? = some found → found ≠ ∅

theorem exists_record?_of_mem {s : Section} (hs : s.Occupied) {label : String} (h : label ∈ s.attributes) :
    ∃ name r, s.record? label name = some r := by
  rw [ExtTreeMap.mem_iff_isSome_getElem?] at h
  obtain ⟨found, hfound⟩ := Option.isSome_iff_exists.1 h
  by_contra hnone
  apply hs label found hfound
  apply ExtTreeMap.ext_getElem?
  intro name
  rw [ExtTreeMap.getElem?_empty]
  by_contra hname
  obtain ⟨r, hr⟩ := Option.ne_none_iff_exists'.1 hname
  exact hnone ⟨name, r, by rw [record?, hfound, Option.bind_some, hr]⟩

theorem record?_setRecord (s : Section) (label name : String) (r : Record) (label' name' : String) :
    (s.setRecord label name r).record? label' name' =
      if label = label' ∧ name = name' then some r else s.record? label' name' := by
  simp only [record?, setRecord, ExtTreeMap.getElem?_alter]
  by_cases hl : label = label'
  · subst hl
    by_cases hn : name = name'
    · simp [hn]
    · cases s.attributes[label]? <;> simp [ExtTreeMap.getElem?_insert, hn]
  · simp [hl]

theorem occupied_setRecord {s : Section} (h : s.Occupied) (label name : String) (r : Record) :
    (s.setRecord label name r).Occupied := by
  intro label' found hf
  simp only [setRecord, ExtTreeMap.getElem?_alter] at hf
  split at hf
  · cases hf
    intro he
    have hget := congrArg (fun m : Attributes => m[name]?) he
    simp at hget
  · exact h label' found hf

theorem record?_foldl_setRecord (label : String) (l : List (String × Record)) (s : Section) (label' name' : String) :
    (l.foldl (fun s e => s.setRecord label e.1 e.2) s).record? label' name' =
      if label = label' then (l.filter fun e => e.1 = name').foldl (fun _ e => some e.2) (s.record? label' name')
      else s.record? label' name' := by
  induction l generalizing s with
  | nil => simp
  | cons e l ih =>
    rw [List.foldl_cons, ih, record?_setRecord]
    by_cases hl : label = label'
    · by_cases hn : e.1 = name'
      · simp [hl, hn]
      · simp [hl, hn]
    · simp [hl]

theorem record?_setRecords (s : Section) (label : String) (records : Attributes) (label' name' : String) :
    (s.setRecords label records).record? label' name' =
      if label = label' then records[name']?.or (s.record? label' name') else s.record? label' name' := by
  rw [setRecords, record?_foldl_setRecord, filter_key_toList]
  cases records[name']? <;> rfl

theorem occupied_setRecords {s : Section} (h : s.Occupied) (label : String) (records : Attributes) :
    (s.setRecords label records).Occupied :=
  List.foldlRecOn records.toList _ h fun _ hs e _ => occupied_setRecord hs label e.1 e.2

theorem total_setRecords (s : Section) (label : String) (records : Attributes) :
    (s.setRecords label records).total = s.total :=
  List.foldlRecOn records.toList _ (motive := fun t : Section => t.total = s.total) rfl fun _ ht _ _ => ht

theorem labelCounts_setRecords (s : Section) (label : String) (records : Attributes) :
    (s.setRecords label records).labelCounts = s.labelCounts :=
  List.foldlRecOn records.toList _ (motive := fun t : Section => t.labelCounts = s.labelCounts) rfl
    fun _ ht _ _ => ht

def setAll {β : Type} (s : Section) (m : ExtTreeMap String β) (f : String → β → Attributes) : Section :=
  m.toList.foldl (fun s e => s.setRecords e.1 (f e.1 e.2)) s

section
variable {β : Type} (s : Section) (m : ExtTreeMap String β) (f : String → β → Attributes)

theorem record?_foldl_setRecords (l : List (String × β)) (label name : String) :
    (l.foldl (fun s e => s.setRecords e.1 (f e.1 e.2)) s).record? label name =
      (l.filter fun e => e.1 = label).foldl (fun old e => (f e.1 e.2)[name]?.or old) (s.record? label name) := by
  induction l generalizing s with
  | nil => rfl
  | cons e l ih =>
    rw [List.foldl_cons, ih, record?_setRecords]
    by_cases h : e.1 = label
    · simp [h]
    · simp [h]

theorem record?_setAll (label name : String) :
    (s.setAll m f).record? label name = (m[label]?.bind fun v => (f label v)[name]?).or (s.record? label name) := by
  rw [setAll, record?_foldl_setRecords, filter_key_toList]
  cases m[label]? <;> rfl

variable {s}

theorem occupied_setAll (h : s.Occupied) : (s.setAll m f).Occupied :=
  List.foldlRecOn m.toList _ h fun _ hs e _ => occupied_setRecords hs e.1 (f e.1 e.2)

variable (s)

theorem total_setAll : (s.setAll m f).total = s.total :=
  List.foldlRecOn m.toList _ (motive := fun t : Section => t.total = s.total) rfl
    fun t ht e _ => (total_setRecords t e.1 (f e.1 e.2)).trans ht

theorem labelCounts_setAll : (s.setAll m f).labelCounts = s.labelCounts :=
  List.foldlRecOn m.toList _ (motive := fun t : Section => t.labelCounts = s.labelCounts) rfl
    fun t ht e _ => (labelCounts_setRecords t e.1 (f e.1 e.2)).trans ht

end

def counted (counts : ExtTreeMap String Nat) : Section :=
  counts.toList.foldl (fun found entry => found.addRows entry.1 entry.2) .empty

theorem labelCounts_counted (counts : ExtTreeMap String Nat) : (counted counts).labelCounts = counts := by
  apply ExtTreeMap.ext_getElem?
  intro label
  have hfold : counts.toList.foldl (fun m e => m.alter e.1 fun n => some (n.getD 0 + e.2)) empty.labelCounts =
      (counted counts).labelCounts := List.foldl_hom labelCounts fun _ _ => rfl
  rw [← hfold, getElem?_foldl_toList_alter counts fun n old => old.getD 0 + n]
  cases counts[label]? <;> simp [empty]

theorem total_foldl_addRows (l : List (String × Nat)) (s : Section) :
    (l.foldl (fun found entry => found.addRows entry.1 entry.2) s).total = s.total + (l.map Prod.snd).sum := by
  induction l generalizing s with
  | nil => rfl
  | cons e l ih =>
    rw [List.foldl_cons, ih, List.map_cons, List.sum_cons, ← Nat.add_assoc]
    rfl

theorem total_counted (counts : ExtTreeMap String Nat) :
    (counted counts).total = (counts.toList.map Prod.snd).sum := by
  rw [counted, total_foldl_addRows, empty, Nat.zero_add]

theorem attributes_counted (counts : ExtTreeMap String Nat) : (counted counts).attributes = ∅ :=
  List.foldlRecOn counts.toList _ (motive := fun t : Section => t.attributes = ∅) rfl fun _ ht _ _ => ht

theorem record?_counted (counts : ExtTreeMap String Nat) (label name : String) :
    (counted counts).record? label name = none := by
  rw [record?, attributes_counted]
  rfl

theorem occupied_counted (counts : ExtTreeMap String Nat) : (counted counts).Occupied := by
  intro label found h
  rw [attributes_counted] at h
  cases h

section
variable {s : Section} (hs : s.Occupied) {label : String} {found : Attributes}
  (h : ∀ name, s.record? label name = found[name]?)
include hs h

theorem attributes_eq_of_record? :
    s.attributes[label]? = if found.isEmpty then none else some found := by
  cases ha : s.attributes[label]? with
  | none =>
    have hempty : found = ∅ := by
      apply ExtTreeMap.ext_getElem?
      intro name
      rw [← h, record?, ha, ExtTreeMap.getElem?_empty, Option.bind_none]
    simp [hempty]
  | some m =>
    have hm : m = found := by
      apply ExtTreeMap.ext_getElem?
      intro name
      rw [← h, record?, ha, Option.bind_some]
    have hne : found.isEmpty = false := by
      rw [← hm, ExtTreeMap.isEmpty_eq_false_iff]
      exact hs label m ha
    rw [hne, hm]
    rfl

theorem getD_attributes_of_record? : s.attributes[label]?.getD ∅ = found := by
  rw [attributes_eq_of_record? hs h]
  by_cases hempty : found.isEmpty = true
  · rw [if_pos hempty]
    exact (ExtTreeMap.isEmpty_iff.1 hempty).symm
  · rw [if_neg hempty]
    rfl

theorem attributes_eq_none_iff_of_record? : s.attributes[label]? = none ↔ found = ∅ := by
  rw [attributes_eq_of_record? hs h, ← ExtTreeMap.isEmpty_iff]
  by_cases hempty : found.isEmpty = true
  · simp [hempty]
  · simp [hempty]

end

theorem eq_of_record? {s t : Section} (hs : s.Occupied) (ht : t.Occupied) (htotal : s.total = t.total)
    (hcounts : s.labelCounts = t.labelCounts) (h : ∀ label name, s.record? label name = t.record? label name) :
    s = t := by
  have hattributes : s.attributes = t.attributes := by
    apply ExtTreeMap.ext_getElem?
    intro label
    have hfound : ∀ name, t.record? label name = (t.attributes[label]?.getD ∅)[name]? := by
      intro name
      rw [record?]
      cases t.attributes[label]? <;> simp
    exact (attributes_eq_of_record? hs fun name => (h label name).trans (hfound name)).trans
      (attributes_eq_of_record? ht hfound).symm
  cases s
  cases t
  simp only at htotal hcounts hattributes
  rw [htotal, hcounts, hattributes]

end GraphProfile.Section
