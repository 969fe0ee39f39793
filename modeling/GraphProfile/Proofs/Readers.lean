import GraphProfile.Proofs.Slots

set_option autoImplicit false

namespace GraphProfile
open Std Json

structure Reader where
  name : String
  {α : Type}
  read : Option Json → Option α

/-- Nothing matters but what the readers make of what stands under their names, and each of them has to succeed. -/
structure ReadBy {α : Type} (decode? : Json → Option α) (readers : List Reader) : Prop where
  nodup : (readers.map Reader.name).Nodup
  unreadable : ∀ {j}, slots? (readers.map Reader.name) j = none → decode? j = none
  congr : ∀ {j j' slot slot'}, slots? (readers.map Reader.name) j = some ((readers.map Reader.name).map slot) →
    slots? (readers.map Reader.name) j' = some ((readers.map Reader.name).map slot') →
      (∀ r ∈ readers, r.read (slot r.name) = r.read (slot' r.name)) → decode? j = decode? j'
  strict : ∀ {j slot}, slots? (readers.map Reader.name) j = some ((readers.map Reader.name).map slot) →
    ∀ r ∈ readers, r.read (slot r.name) = none → decode? j = none

namespace ReadBy

variable {α : Type} {decode? : Json → Option α} {readers : List Reader}

theorem of_slots {build : List (Option Json) → Option α} (nodup : (readers.map Reader.name).Nodup)
    (hdecode : ∀ j, decode? j = (slots? (readers.map Reader.name) j).bind build)
    (hcongr : ∀ slot slot' : String → Option Json, (∀ r ∈ readers, r.read (slot r.name) = r.read (slot' r.name)) →
      build ((readers.map Reader.name).map slot) = build ((readers.map Reader.name).map slot'))
    (hstrict : ∀ slot : String → Option Json, ∀ r ∈ readers, r.read (slot r.name) = none →
      build ((readers.map Reader.name).map slot) = none) : ReadBy decode? readers where
  nodup := nodup
  unreadable hj := by rw [hdecode, hj, Option.bind_none]
  congr hj hj' h := by rw [hdecode, hdecode, hj, hj', Option.bind_some, Option.bind_some, hcongr _ _ h]
  strict hj r hr h := by rw [hdecode, hj, Option.bind_some, hstrict _ r hr h]

variable (h : ReadBy decode? readers)
include h

theorem object_congr {fields fields' : List (Option String × Json)}
    (hslots : slots? (readers.map Reader.name) (.object fields) = slots? (readers.map Reader.name) (.object fields')) :
    decode? (.object fields) = decode? (.object fields') := by
  by_cases hdistinct : Distinct (readers.map Reader.name) fields
  · have hfound := slots?_of_distinct hdistinct
    exact h.congr hfound (hslots ▸ hfound) fun _ _ => rfl
  · have hnone := slots?_of_not_distinct hdistinct
    rw [h.unreadable hnone, h.unreadable (hslots ▸ hnone)]

section
variable {r : Reader} (hr : r ∈ readers)
include hr

theorem update_congr {slot : String → Option Json} {a b : Option Json} (hab : r.read a = r.read b) {j j' : Json}
    (hj : slots? (readers.map Reader.name) j = some ((readers.map Reader.name).map (Function.update slot r.name a)))
    (hj' : slots? (readers.map Reader.name) j' = some ((readers.map Reader.name).map (Function.update slot r.name b))) :
    decode? j = decode? j' := by
  refine h.congr hj hj' fun r' hr' => ?_
  by_cases hname : r'.name = r.name
  · obtain rfl := List.inj_on_of_nodup_map h.nodup hr' hr hname
    rw [Function.update_self, Function.update_self, hab]
  · rw [Function.update_of_ne hname, Function.update_of_ne hname]

theorem update_none {slot : String → Option Json} {a : Option Json} (ha : r.read a = none) {j : Json}
    (hj : slots? (readers.map Reader.name) j = some ((readers.map Reader.name).map (Function.update slot r.name a))) :
    decode? j = none :=
  h.strict hj r hr (by rw [Function.update_self, ha])

variable {around : Json → Json} (haround : FillsSlot (readers.map Reader.name) r.name around) {x y : Json}
include haround

theorem around_congr (hxy : r.read (some x) = r.read (some y)) : decode? (around x) = decode? (around y) := by
  rcases haround with hnone | ⟨slot, hslot⟩
  · rw [h.unreadable (hnone x), h.unreadable (hnone y)]
  · exact h.update_congr hr hxy (hslot x) (hslot y)

theorem around_none (hx : r.read (some x) = none) : decode? (around x) = none := by
  rcases haround with hnone | ⟨slot, hslot⟩
  · exact h.unreadable (hnone x)
  · exact h.update_none hr hx (hslot x)

end

section
variable {r : Reader} (hr : r ∈ readers) {before after : List (Option String × Json)} {x : Json} {a : α}
  (ha : decode? (.object (before ++ (some r.name, x) :: after)) = some a)
include hr ha

theorem dropped_congr (hx : r.read (some x) = r.read none) : decode? (.object (before ++ after)) = some a := by
  rcases slots?_known (List.mem_map_of_mem hr) before after with hnone | ⟨slot, hwithout, hwith⟩
  · rw [h.unreadable (hnone x)] at ha
    cases ha
  · rw [← ha]
    exact h.update_congr hr hx.symm hwithout (hwith x)

theorem dropped_none (hmissing : r.read none = none) : decode? (.object (before ++ after)) = none := by
  rcases slots?_known (List.mem_map_of_mem hr) before after with hnone | ⟨slot, hwithout, _⟩
  · rw [h.unreadable (hnone x)] at ha
    cases ha
  · exact h.update_none hr hmissing hwithout

end

end ReadBy

namespace Histogram

def readers : List Reader :=
  [⟨"bins", orElse (array? float?) []⟩, ⟨"counts", orElse (array? count?) []⟩,
    ⟨"value_counts", orElse (map? some count?) ∅⟩]

theorem readBy : ReadBy decode? readers := by
  refine .of_slots (by decide) (fun _ => rfl) (fun slot slot' h => ?_) fun slot => ?_
  · simp only [readers, List.forall_mem_cons] at h
    simp only [readers, List.map_cons, List.map_nil, h]
  · simp only [readers, List.map_cons, List.map_nil, List.forall_mem_cons]
    simp +contextual

end Histogram

namespace Selectivity

def readers : List Reader :=
  [⟨"eq", required float?⟩, ⟨"ne", required float?⟩, ⟨"gt", orElse decodeRanges? ∅⟩, ⟨"ge", orElse decodeRanges? ∅⟩,
    ⟨"lt", orElse decodeRanges? ∅⟩, ⟨"le", orElse decodeRanges? ∅⟩]

theorem readBy : ReadBy decode? readers := by
  refine .of_slots (by decide) (fun _ => rfl) (fun slot slot' h => ?_) fun slot => ?_
  · simp only [readers, List.forall_mem_cons] at h
    simp only [readers, List.map_cons, List.map_nil, h]
  · simp only [readers, List.map_cons, List.map_nil, List.forall_mem_cons]
    simp +contextual

end Selectivity

namespace Record

def readers : List Reader :=
  [⟨"count", required count?⟩, ⟨"null_count", required count?⟩, ⟨"distinct_count", required count?⟩,
    ⟨"min_value", Bound.slot?⟩, ⟨"max_value", Bound.slot?⟩, ⟨"histogram", orElse Histogram.decode? .empty⟩,
    ⟨"selectivity", required Selectivity.decode?⟩, ⟨"type", required ValueType.decode?⟩]

theorem readBy : ReadBy decode? readers := by
  refine .of_slots (by decide) (fun _ => rfl) (fun slot slot' h => ?_) fun slot => ?_
  · simp only [readers, List.forall_mem_cons] at h
    simp only [readers, List.map_cons, List.map_nil, h]
  · simp only [readers, List.map_cons, List.map_nil, List.forall_mem_cons]
    simp +contextual

end Record

namespace Profile

def readers : List Reader :=
  [⟨"v_cnt", required count?⟩, ⟨"e_cnt", required count?⟩, ⟨"v_label_cnt", orElse decodeCounts? ∅⟩,
    ⟨"e_label_cnt", orElse decodeCounts? ∅⟩, ⟨"v_attr_stats", orElse decodeAttributes? ∅⟩,
    ⟨"e_attr_stats", orElse decodeAttributes? ∅⟩]

theorem readBy : ReadBy decode? readers := by
  refine .of_slots (by decide) (fun _ => rfl) (fun slot slot' h => ?_) fun slot => ?_
  · simp only [readers, List.forall_mem_cons] at h
    simp only [readers, List.map_cons, List.map_nil, h]
  · simp only [readers, List.map_cons, List.map_nil, List.forall_mem_cons]
    simp +contextual

end Profile

end GraphProfile
