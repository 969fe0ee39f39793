import GraphProfile.Profile.Decode
import Mathlib.Data.List.Nodup
import Mathlib.Data.List.Perm.Basic
import Mathlib.Logic.Function.Basic

set_option autoImplicit false

namespace GraphProfile.Json
open Std

variable {names : List String} {name : String}

/-- What stands under the name where it occurs first. -/
def fieldOf (fields : List (Option String × Json)) (name : String) : Option Json :=
  (fields.find? fun f => f.1 == some name).map Prod.snd

/-- All names are text, and none of the known ones occurs twice. -/
structure Distinct (names : List String) (fields : List (Option String × Json)) : Prop where
  text : ∀ key ∈ fields.map Prod.fst, key.isSome
  known : ((fields.map Prod.fst).filter (isKnown names)).Nodup

section
variable {fields fields' : List (Option String × Json)}

theorem slots?_of_distinct (h : Distinct names fields) :
    slots? names (.object fields) = some (names.map (fieldOf fields)) := by
  rw [slots?]
  exact if_pos ⟨List.all_eq_true.2 h.text, h.known⟩

theorem slots?_of_not_distinct (h : ¬ Distinct names fields) : slots? names (.object fields) = none := by
  rw [slots?]
  exact if_neg fun hkeys => h ⟨List.all_eq_true.1 hkeys.1, hkeys.2⟩

theorem isKnown_some : isKnown names (some name) = true ↔ name ∈ names := by
  rw [isKnown, Option.any_some, List.contains_iff_mem]

theorem Distinct.eq_of_mem (h : Distinct names fields) (hname : name ∈ names) {x y : Json}
    (hx : (some name, x) ∈ fields) (hy : (some name, y) ∈ fields) : x = y := by
  have hknown := h.known
  rw [List.filter_map] at hknown
  have hmem {z : Json} (hz : (some name, z) ∈ fields) : (some name, z) ∈ fields.filter (isKnown names ∘ Prod.fst) :=
    List.mem_filter.2 ⟨hz, isKnown_some.2 hname⟩
  exact congrArg Prod.snd (List.inj_on_of_nodup_map hknown (hmem hx) (hmem hy) rfl)

theorem mem_of_fieldOf {x : Json} (h : fieldOf fields name = some x) : (some name, x) ∈ fields := by
  obtain ⟨f, hf, rfl⟩ := Option.map_eq_some_iff.1 h
  have hfound := List.find?_some hf
  have hname : f.1 = some name := eq_of_beq hfound
  rw [← hname]
  exact List.mem_of_find?_eq_some hf

theorem fieldOf_eq_none_iff : fieldOf fields name = none ↔ some name ∉ fields.map Prod.fst := by
  rw [fieldOf, Option.map_eq_none_iff, List.find?_eq_none, List.mem_map, not_exists]
  exact forall_congr' fun f => by rw [not_and, beq_iff_eq]

theorem Distinct.fieldOf_eq_some_iff (h : Distinct names fields) (hname : name ∈ names) {x : Json} :
    fieldOf fields name = some x ↔ (some name, x) ∈ fields := by
  refine ⟨mem_of_fieldOf, fun hx => ?_⟩
  cases hfield : fieldOf fields name with
  | none => exact absurd (List.mem_map_of_mem hx) (fieldOf_eq_none_iff.1 hfield)
  | some y => rw [h.eq_of_mem hname hx (mem_of_fieldOf hfield)]

theorem Distinct.perm (h : Distinct names fields) (hperm : fields.Perm fields') : Distinct names fields' :=
  have hkeys := hperm.map Prod.fst
  ⟨fun key hkey => h.text key (hkeys.mem_iff.2 hkey), ((hkeys.filter _).nodup_iff).1 h.known⟩

theorem slots?_perm (hperm : fields.Perm fields') : slots? names (.object fields) = slots? names (.object fields') := by
  by_cases h : Distinct names fields
  · have h' := h.perm hperm
    rw [slots?_of_distinct h, slots?_of_distinct h']
    congr 1
    refine List.map_congr_left fun name hname => Option.ext fun x => ?_
    rw [h.fieldOf_eq_some_iff hname, h'.fieldOf_eq_some_iff hname, hperm.mem_iff]
  · rw [slots?_of_not_distinct h, slots?_of_not_distinct fun h' => h (h'.perm hperm.symm)]

theorem fieldOf_cons (fields : List (Option String × Json)) (name : String) (x : Json) :
    fieldOf ((some name, x) :: fields) = Function.update (fieldOf fields) name (some x) := by
  funext n
  rw [fieldOf, List.find?_cons]
  by_cases hn : n = name
  · subst hn
    rw [Function.update_self, beq_self_eq_true]
    rfl
  · have hne : ((some name : Option String) == some n) = false :=
      beq_eq_false_iff_ne.2 fun he => hn (Option.some.inj he).symm
    rw [Function.update_of_ne hn, hne]
    rfl

theorem distinct_cons_unknown (hname : name ∉ names) (x : Json) :
    Distinct names ((some name, x) :: fields) ↔ Distinct names fields := by
  have hunknown : ¬ isKnown names (some name) = true := fun h => hname (isKnown_some.1 h)
  constructor
  · rintro ⟨htext, hknown⟩
    rw [List.map_cons, List.filter_cons_of_neg hunknown] at hknown
    exact ⟨fun key hkey => htext key (List.mem_cons_of_mem _ hkey), hknown⟩
  · rintro ⟨htext, hknown⟩
    refine ⟨List.forall_mem_cons.2 ⟨rfl, htext⟩, ?_⟩
    rwa [List.map_cons, List.filter_cons_of_neg hunknown]

theorem distinct_cons_known (hname : name ∈ names) (x : Json) :
    Distinct names ((some name, x) :: fields) ↔ some name ∉ fields.map Prod.fst ∧ Distinct names fields := by
  have hknown := isKnown_some.2 hname
  constructor
  · rintro ⟨htext, hnodup⟩
    rw [List.map_cons, List.filter_cons_of_pos hknown, List.nodup_cons, List.mem_filter] at hnodup
    exact ⟨fun hmem => hnodup.1 ⟨hmem, hknown⟩, fun key hkey => htext key (List.mem_cons_of_mem _ hkey), hnodup.2⟩
  · rintro ⟨hnot, htext, hnodup⟩
    refine ⟨List.forall_mem_cons.2 ⟨rfl, htext⟩, ?_⟩
    rw [List.map_cons, List.filter_cons_of_pos hknown, List.nodup_cons, List.mem_filter]
    exact ⟨fun hmem => hnot hmem.1, hnodup⟩

end

section
variable {before after : List (Option String × Json)}

theorem slots?_unknown (hname : name ∉ names) (x : Json) :
    slots? names (.object (before ++ (some name, x) :: after)) = slots? names (.object (before ++ after)) := by
  rw [slots?_perm List.perm_middle]
  by_cases h : Distinct names (before ++ after)
  · rw [slots?_of_distinct h, slots?_of_distinct ((distinct_cons_unknown hname x).2 h), fieldOf_cons]
    congr 1
    refine List.map_congr_left fun n hn => Function.update_of_ne ?_ _ _
    rintro rfl
    exact hname hn
  · rw [slots?_of_not_distinct h, slots?_of_not_distinct fun h' => h ((distinct_cons_unknown hname x).1 h')]

theorem slots?_repeated (hname : name ∈ names) (hmem : some name ∈ (before ++ after).map Prod.fst) (x : Json) :
    slots? names (.object (before ++ (some name, x) :: after)) = none := by
  rw [slots?_perm List.perm_middle]
  exact slots?_of_not_distinct fun h => ((distinct_cons_known hname x).1 h).1 hmem

/-- Where there is something to read, a known field stands under its own name only, and nothing does without it. -/
theorem slots?_known (hname : name ∈ names) (before after : List (Option String × Json)) :
    (∀ x, slots? names (.object (before ++ (some name, x) :: after)) = none) ∨
      ∃ slot, slots? names (.object (before ++ after)) = some (names.map (Function.update slot name none)) ∧
        ∀ x, slots? names (.object (before ++ (some name, x) :: after)) =
          some (names.map (Function.update slot name (some x))) := by
  by_cases h : some name ∉ (before ++ after).map Prod.fst ∧ Distinct names (before ++ after)
  · refine .inr ⟨fieldOf (before ++ after), ?_, fun x => ?_⟩
    · rw [slots?_of_distinct h.2, ← fieldOf_eq_none_iff.2 h.1, Function.update_eq_self]
    · rw [slots?_perm List.perm_middle, slots?_of_distinct ((distinct_cons_known hname x).2 h), fieldOf_cons]
  · refine .inl fun x => ?_
    rw [slots?_perm List.perm_middle]
    exact slots?_of_not_distinct fun h' => h ((distinct_cons_known hname x).1 h')

end

theorem slots?_array (hnames : names.Nodup) {items : List Json} (hlength : items.length ≤ names.length) :
    slots? names (.array items) = some (names.map fun name => items[names.idxOf name]?) := by
  rw [slots?, if_pos hlength]
  congr 1
  apply List.ext_getElem
  · rw [List.length_append, List.length_map, List.length_replicate, List.length_map]
    omega
  · intro i _ hi
    rw [List.length_map] at hi
    rw [List.getElem_map, hnames.idxOf_getElem, List.getElem_append]
    split
    · rename_i hitem
      rw [List.length_map] at hitem
      rw [List.getElem_map, List.getElem?_eq_getElem hitem]
    · rename_i hitem
      rw [List.length_map] at hitem
      rw [List.getElem_replicate, List.getElem?_eq_none (by omega)]

/-- The value that the tree is built around stands under the name, if there is something to read at all. -/
def FillsSlot (names : List String) (name : String) (around : Json → Json) : Prop :=
  (∀ x, slots? names (around x) = none) ∨
    ∃ slot, ∀ x, slots? names (around x) = some (names.map (Function.update slot name (some x)))

theorem fillsSlot_object (hname : name ∈ names) (before after : List (Option String × Json)) :
    FillsSlot names name fun x => .object (before ++ (some name, x) :: after) :=
  (slots?_known hname before after).imp_right fun ⟨slot, _, h⟩ => ⟨slot, h⟩

theorem fillsSlot_array (hnames : names.Nodup) {before : List Json} (hname : names[before.length]? = some name)
    (after : List Json) : FillsSlot names name fun x => .array (before ++ x :: after) := by
  have hlength (x y : Json) : (before ++ x :: after).length = (before ++ y :: after).length := by
    rw [List.length_append, List.length_append, List.length_cons, List.length_cons]
  by_cases h : (before ++ .null :: after).length ≤ names.length
  · refine .inr ⟨fun n => (before ++ .null :: after)[names.idxOf n]?, fun x => ?_⟩
    rw [slots?_array hnames (by rwa [hlength x .null])]
    congr 1
    refine List.map_congr_left fun n hn => ?_
    obtain ⟨hbound, hat⟩ := List.getElem?_eq_some_iff.1 hname
    by_cases hn' : n = name
    · subst hn'
      rw [Function.update_self, ← hat, hnames.idxOf_getElem, List.getElem?_append_right (Nat.le_refl _), Nat.sub_self]
      rfl
    · rw [Function.update_of_ne hn']
      have hindex : names.idxOf n ≠ before.length := by
        intro he
        apply hn'
        rw [← hat, ← List.getElem_idxOf (List.idxOf_lt_length_of_mem hn)]
        congr 1
      rcases Nat.lt_or_gt_of_ne hindex with hlt | hgt
      · rw [List.getElem?_append_left hlt, List.getElem?_append_left hlt]
      · rw [List.getElem?_append_right (Nat.le_of_lt hgt), List.getElem?_append_right (Nat.le_of_lt hgt)]
        obtain ⟨k, hk⟩ : ∃ k, names.idxOf n - before.length = k + 1 := Nat.exists_eq_add_one.2 (by omega)
        rw [hk, List.getElem?_cons_succ, List.getElem?_cons_succ]
  · refine .inl fun x => ?_
    rw [slots?, if_neg (by rwa [hlength x .null])]

section
variable {κ α : Type} [Ord κ] [TransOrd κ] {key : String → Option κ} {value : Json → Option α} {x y : Json}

theorem map?_congr (h : value x = value y) (k : Option String) (before after : List (Option String × Json)) :
    map? key value (.object (before ++ (k, x) :: after)) = map? key value (.object (before ++ (k, y) :: after)) := by
  simp only [map?, List.foldlM_append, List.foldlM_cons, h]

theorem map?_eq_none (h : value x = none) (k : Option String) (before after : List (Option String × Json)) :
    map? key value (.object (before ++ (k, x) :: after)) = none := by
  simp only [map?, List.foldlM_append, List.foldlM_cons, h]
  simp

end

end GraphProfile.Json
