import Std.Data.ExtTreeMap

set_option autoImplicit false

namespace GraphProfile
open Std

theorem filter_key_of_mem {κ β : Type} [DecidableEq κ] {l : List (κ × β)} (hl : (l.map Prod.fst).Nodup)
    {k : κ} {v : β} (h : (k, v) ∈ l) : (l.filter fun e => e.1 = k) = [(k, v)] := by
  induction l with
  | nil => cases h
  | cons e l ih =>
    rw [List.map_cons, List.nodup_cons] at hl
    rcases List.mem_cons.1 h with he | ht
    · subst he
      have hrest : (l.filter fun e => e.1 = k) = [] := by
        rw [List.filter_eq_nil_iff]
        intro e he hk
        exact hl.1 (List.mem_map.2 ⟨e, he, by simpa using hk⟩)
      simp [hrest]
    · have hne : e.1 ≠ k := by
        intro hk
        exact hl.1 (List.mem_map.2 ⟨(k, v), ht, hk.symm⟩)
      rw [List.filter_cons_of_neg (by simpa using hne), ih hl.2 ht]

section
variable {κ : Type} [Ord κ] [TransOrd κ] [LawfulEqOrd κ] {α β : Type}

theorem nodup_keys_toList (m : ExtTreeMap κ β) : (m.toList.map Prod.fst).Nodup := by
  rw [List.Nodup, List.pairwise_map]
  refine (ExtTreeMap.distinct_keys_toList (t := m)).imp ?_
  intro a b h he
  exact h (by rw [he]; exact ReflCmp.compare_self)

variable [DecidableEq κ]

theorem getElem?_foldl_alter (key : α → κ) (put : α → Option β → β) (l : List α) (m : ExtTreeMap κ β) (k : κ) :
    (l.foldl (fun m a => m.alter (key a) fun old => some (put a old)) m)[k]? =
      (l.filter fun a => key a = k).foldl (fun old a => some (put a old)) m[k]? := by
  induction l generalizing m with
  | nil => rfl
  | cons a l ih =>
    rw [List.foldl_cons, ih, List.filter_cons, ExtTreeMap.getElem?_alter]
    by_cases h : key a = k
    · simp [h]
    · simp [h]

theorem filter_key_toList (m : ExtTreeMap κ β) (k : κ) :
    (m.toList.filter fun e => e.1 = k) = (m[k]?.map fun v => (k, v)).toList := by
  cases h : m[k]? with
  | none =>
    rw [Option.map_none, Option.toList_none, List.filter_eq_nil_iff]
    intro e he hk
    have hget := ExtTreeMap.mem_toList_iff_getElem?_eq_some.1 he
    rw [of_decide_eq_true hk, h] at hget
    cases hget
  | some v =>
    exact filter_key_of_mem (nodup_keys_toList m) (ExtTreeMap.mem_toList_iff_getElem?_eq_some.2 h)

theorem ofList_toList (m : ExtTreeMap κ β) : ExtTreeMap.ofList m.toList = m := by
  apply ExtTreeMap.ext_getElem?
  intro k
  cases h : m[k]? with
  | none =>
    apply ExtTreeMap.getElem?_ofList_of_contains_eq_false
    rw [List.contains_eq_mem, decide_eq_false_iff_not]
    intro hk
    obtain ⟨e, he, rfl⟩ := List.mem_map.1 hk
    rw [ExtTreeMap.mem_toList_iff_getElem?_eq_some.1 he] at h
    cases h
  | some v =>
    exact ExtTreeMap.getElem?_ofList_of_mem ReflCmp.compare_self ExtTreeMap.distinct_keys_toList
      (ExtTreeMap.mem_toList_iff_getElem?_eq_some.2 h)

theorem getElem?_foldl_toList_alter (found : ExtTreeMap κ α) (put : α → Option β → β) (m : ExtTreeMap κ β) (k : κ) :
    (found.toList.foldl (fun m e => m.alter e.1 fun old => some (put e.2 old)) m)[k]? =
      found[k]?.elim m[k]? fun a => some (put a m[k]?) := by
  have h := getElem?_foldl_alter (fun e : κ × α => e.1) (fun e => put e.2) found.toList m k
  rw [filter_key_toList] at h
  rw [h]
  cases found[k]? <;> rfl

end

end GraphProfile
