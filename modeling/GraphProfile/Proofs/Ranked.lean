import GraphProfile.Run.Tally

set_option autoImplicit false

namespace GraphProfile.Ranked

variable {α : Type}

/-- What is kept after all of `found` have come, one by one. -/
def keepFrom (old : Option (Ranked α)) (found : List (Ranked α)) : Option (Ranked α) :=
  found.foldl (fun old new => some (keep new old)) old

theorem keep_of_lt {new old : Ranked α} (h : old.ordinal < new.ordinal) : keep new (some old) = new := if_pos h

theorem keep_of_le {new old : Ranked α} (h : new.ordinal ≤ old.ordinal) : keep new (some old) = old :=
  if_neg (Nat.not_lt.2 h)

theorem ordinal_le_keep (new : Ranked α) (old : Option (Ranked α)) : new.ordinal ≤ (keep new old).ordinal := by
  cases old with
  | none => exact Nat.le_refl _
  | some old =>
    by_cases h : old.ordinal < new.ordinal
    · exact Nat.le_of_eq (congrArg ordinal (keep_of_lt h)).symm
    · rw [keep_of_le (Nat.not_lt.1 h)]
      exact Nat.not_lt.1 h

/-- Once `b` has come, what is lower makes no difference, before or after. -/
theorem keep_keep_of_lt {a b : Ranked α} (h : a.ordinal < b.ordinal) (old : Option (Ranked α)) :
    keep a (some (keep b old)) = keep b old ∧ keep b (some (keep a old)) = keep b old := by
  refine ⟨keep_of_le (Nat.le_trans (Nat.le_of_lt h) (ordinal_le_keep b old)), ?_⟩
  cases old with
  | none => exact keep_of_lt h
  | some c =>
    by_cases hc : c.ordinal < a.ordinal
    · rw [keep_of_lt hc, keep_of_lt h, keep_of_lt (Nat.lt_trans hc h)]
    · rw [keep_of_le (Nat.not_lt.1 hc)]

theorem keep_comm {a b : Ranked α} (h : a.ordinal ≠ b.ordinal) (old : Option (Ranked α)) :
    keep a (some (keep b old)) = keep b (some (keep a old)) := by
  rcases Nat.lt_or_gt_of_ne h with hlt | hgt
  · rw [(keep_keep_of_lt hlt old).1, (keep_keep_of_lt hlt old).2]
  · rw [(keep_keep_of_lt hgt old).1, (keep_keep_of_lt hgt old).2]

theorem keepFrom_perm {found found' : List (Ranked α)} (hp : found.Perm found')
    (hd : (found.map ordinal).Nodup) (old : Option (Ranked α)) : keepFrom old found = keepFrom old found' := by
  have hcomm : found.Pairwise fun a b => ∀ old, some (keep b (some (keep a old))) = some (keep a (some (keep b old))) :=
    (List.pairwise_map.1 hd).imp fun h old => congrArg some (keep_comm h.symm old)
  apply hp.foldl_eq'
  exact List.Pairwise.forall_of_forall_of_flip (fun _ _ _ => rfl) hcomm (hcomm.imp fun h old => (h old).symm)

theorem keepFrom_of_ascending {found : List (Ranked α)} (hf : found.Pairwise fun a b => a.ordinal < b.ordinal) :
    ∀ old : Option (Ranked α), (∀ a ∈ found, ∀ c, old = some c → c.ordinal < a.ordinal) →
      keepFrom old found = found.getLast?.or old := by
  induction found with
  | nil =>
    intro old _
    simp [keepFrom]
  | cons a found ih =>
    intro old hold
    rw [List.pairwise_cons] at hf
    have hkeep : keep a old = a := by
      cases old with
      | none => rfl
      | some c => exact if_pos (hold a (List.mem_cons_self ..) c rfl)
    change keepFrom (some (keep a old)) found = _
    rw [hkeep, ih hf.2]
    · rw [List.getLast?_cons]
      cases found.getLast? <;> simp
    · intro b hb c hc
      cases hc
      exact hf.1 b hb

theorem keepFrom_none {found : List (Ranked α)} (hf : found.Pairwise fun a b => a.ordinal < b.ordinal) :
    keepFrom none found = found.getLast? := by
  rw [keepFrom_of_ascending hf none (by simp), Option.or_none]

theorem le_trans_ordinal (a b c : Ranked α) (hab : decide (a.ordinal ≤ b.ordinal) = true)
    (hbc : decide (b.ordinal ≤ c.ordinal) = true) : decide (a.ordinal ≤ c.ordinal) = true := by
  simp only [decide_eq_true_eq] at *
  omega

theorem le_total_ordinal (a b : Ranked α) :
    (decide (a.ordinal ≤ b.ordinal) || decide (b.ordinal ≤ a.ordinal)) = true := by
  simp only [Bool.or_eq_true, decide_eq_true_eq]
  omega

theorem sorted_perm (found : List (Ranked α)) : (sorted found).Perm found := List.mergeSort_perm _ _

theorem pairwise_sorted (found : List (Ranked α)) : (sorted found).Pairwise fun a b => a.ordinal ≤ b.ordinal :=
  (List.pairwise_mergeSort le_trans_ordinal le_total_ordinal found).imp fun h => of_decide_eq_true h

theorem sorted_of_pairwise {found : List (Ranked α)} (h : found.Pairwise fun a b => a.ordinal ≤ b.ordinal) :
    sorted found = found :=
  List.mergeSort_of_pairwise (h.imp fun h => decide_eq_true h)

theorem filter_sorted (found : List (Ranked α)) (n : Nat) :
    ((sorted found).filter fun a => a.ordinal = n) = found.filter fun a => a.ordinal = n := by
  have hone : (found.filter fun a => a.ordinal = n).Pairwise fun a b => decide (a.ordinal ≤ b.ordinal) = true := by
    rw [List.pairwise_filter]
    apply List.pairwise_of_forall
    intro a b ha hb
    simp only [decide_eq_true_eq] at *
    omega
  have hsub := (List.sublist_mergeSort le_trans_ordinal le_total_ordinal hone List.filter_sublist).filter
    fun a => decide (a.ordinal = n)
  rw [List.filter_filter, List.filter_congr (q := fun a => decide (a.ordinal = n)) (by simp)] at hsub
  exact (hsub.eq_of_length ((sorted_perm found).filter _).length_eq.symm).symm

theorem mem_of_filter_eq {l l' : List (Ranked α)}
    (h : ∀ n, (l.filter fun a => a.ordinal = n) = l'.filter fun a => a.ordinal = n) {a : Ranked α} (ha : a ∈ l) :
    a ∈ l' := by
  have hf : a ∈ l.filter fun b => b.ordinal = a.ordinal := List.mem_filter.2 ⟨ha, decide_eq_true rfl⟩
  rw [h] at hf
  exact (List.mem_filter.1 hf).1

/-- An ascending list is known from what it has under each ordinal. -/
theorem eq_of_filter_eq {l l' : List (Ranked α)} (hl : l.Pairwise fun a b => a.ordinal ≤ b.ordinal)
    (hl' : l'.Pairwise fun a b => a.ordinal ≤ b.ordinal)
    (h : ∀ n, (l.filter fun a => a.ordinal = n) = l'.filter fun a => a.ordinal = n) : l = l' := by
  induction l generalizing l' with
  | nil => exact (List.eq_nil_iff_forall_not_mem.2 fun b hb => by cases mem_of_filter_eq (fun n => (h n).symm) hb).symm
  | cons a l ih =>
    cases l' with
    | nil => cases mem_of_filter_eq h (List.mem_cons_self ..)
    | cons b l' =>
      rw [List.pairwise_cons] at hl hl'
      have hba : b.ordinal ≤ a.ordinal := by
        rcases List.mem_cons.1 (mem_of_filter_eq h (List.mem_cons_self ..)) with rfl | hm
        · exact Nat.le_refl _
        · exact hl'.1 a hm
      have hab : a.ordinal ≤ b.ordinal := by
        rcases List.mem_cons.1 (mem_of_filter_eq (fun n => (h n).symm) (List.mem_cons_self ..)) with rfl | hm
        · exact Nat.le_refl _
        · exact hl.1 b hm
      have hord : b.ordinal = a.ordinal := Nat.le_antisymm hba hab
      have hhead := h a.ordinal
      rw [List.filter_cons_of_pos (by simp), List.filter_cons_of_pos (by simpa using hord)] at hhead
      obtain rfl : a = b := (List.cons.inj hhead).1
      have htail : ∀ n, (l.filter fun a => a.ordinal = n) = l'.filter fun a => a.ordinal = n := by
        intro n
        have hn := h n
        by_cases hc : a.ordinal = n
        · rw [List.filter_cons_of_pos (by simpa using hc), List.filter_cons_of_pos (by simpa using hc)] at hn
          exact (List.cons.inj hn).2
        · rwa [List.filter_cons_of_neg (by simpa using hc), List.filter_cons_of_neg (by simpa using hc)] at hn
      rw [ih hl.2 hl'.2 htail]

theorem sorted_eq_of_filter_eq {found found' : List (Ranked α)}
    (h : ∀ n, (found.filter fun a => a.ordinal = n) = found'.filter fun a => a.ordinal = n) :
    sorted found = sorted found' := by
  apply eq_of_filter_eq (pairwise_sorted found) (pairwise_sorted found')
  intro n
  rw [filter_sorted, filter_sorted, h]

end GraphProfile.Ranked
