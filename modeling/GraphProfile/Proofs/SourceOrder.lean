import GraphProfile.Proofs.Sources

set_option autoImplicit false

namespace GraphProfile
open Std

namespace Source

def ofKind (k : Kind) (sources : List Source) : List Source := sources.filter fun s => s.kind = k

def partitions (settings : Settings) (label : String) (sources : List Source) : List Partition :=
  sources.filterMap fun s => s.partition? settings label

theorem filterMap_record? (settings : Settings) (label name : String) (sources : List Source) :
    (sources.filterMap fun s => s.record? settings label name) =
      (partitions settings label sources).filterMap fun p => (p.attributes settings.maxBins)[name]? := by
  rw [partitions, List.filterMap_filterMap]
  rfl

theorem labelColumn_partitions (settings : Settings) (label : String) (k : Kind) (sources : List Source) :
    ∀ p ∈ partitions settings label (ofKind k sources), p.labelColumn = settings.labelColumns.get k := by
  intro p hp
  obtain ⟨s, hs, hpart⟩ := List.mem_filterMap.1 hp
  have hkind : s.kind = k := of_decide_eq_true (List.mem_filter.1 hs).2
  rw [labelColumn_partition? hpart, hkind]

end Source

namespace Shelf

section
variable {cs : List Contribution} (h : cs.Pairwise fun c d => c.ordinal < d.ordinal) (label : String)
include h

theorem item_kept_of_ascending (name : String) :
    ((ofContributions cs).kept label name).map Ranked.item =
      (cs.filterMap fun c => c.record? label name).getLast? := by
  have hascending : (cs.filterMap fun c => c.rankedRecord? label name).Pairwise
      fun r s => r.ordinal < s.ordinal := by
    rw [List.pairwise_filterMap]
    refine h.imp ?_
    intro c d hlt r hr s hs
    rw [Contribution.ordinal_of_rankedRecord? hr, Contribution.ordinal_of_rankedRecord? hs]
    exact hlt
  rw [kept_ofContributions, Ranked.keepFrom_none hascending, ← List.getLast?_map, List.map_filterMap]
  simp only [Contribution.rankedRecord?, Option.map_map, Function.comp_def, Option.map_id_fun', id_eq]

theorem items_sorted_pool_of_ascending :
    (Ranked.sorted ((ofContributions cs).pool label)).map Ranked.item = cs.flatMap fun c => c.partitions label := by
  have hascending : (cs.flatMap fun c => c.rankedPartitions label).Pairwise fun p q => p.ordinal ≤ q.ordinal := by
    rw [List.pairwise_flatMap]
    constructor
    · intro c _
      apply List.Pairwise.imp_of_mem _ (List.pairwise_of_forall fun _ _ => trivial)
      intro p q hp hq _
      exact Nat.le_of_eq ((Contribution.ordinal_of_mem_rankedPartitions hp).trans
        (Contribution.ordinal_of_mem_rankedPartitions hq).symm)
    · refine h.imp ?_
      intro c d hlt p hp q hq
      rw [Contribution.ordinal_of_mem_rankedPartitions hp, Contribution.ordinal_of_mem_rankedPartitions hq]
      exact Nat.le_of_lt hlt
  rw [pool_ofContributions, Ranked.sorted_of_pairwise hascending, List.map_flatMap]
  simp only [Contribution.rankedPartitions, List.map_map, Function.comp_def, List.map_id']

end

theorem sum_filterMap_positive? {α : Type} (f : α → Nat) (l : List α) :
    (l.filterMap fun a => positive? (f a)).sum = (l.map f).sum := by
  induction l with
  | nil => rfl
  | cons a l ih =>
    rw [List.filterMap_cons, List.map_cons, List.sum_cons]
    by_cases h : f a = 0
    · rw [h, positive?_zero, Nat.zero_add]
      exact ih
    · rw [positive?_of_ne h, List.sum_cons, ih]

theorem addUp_positive? {α : Type} (f : α → Nat) (l : List α) :
    addUp (l.filterMap fun a => positive? (f a)) = positive? (l.map f).sum := by
  induction l with
  | nil => rfl
  | cons a l ih =>
    rw [List.filterMap_cons, List.map_cons, List.sum_cons]
    by_cases h : f a = 0
    · rw [h, positive?_zero, Nat.zero_add]
      exact ih
    · rw [positive?_of_ne h, positive?_of_ne (by omega), ← sum_filterMap_positive?]
      rfl

end Shelf

namespace Report

def shelf (settings : Settings) (sources : List Source) (k : Kind) : Shelf :=
  .ofContributions ((contributions settings sources).filter fun c => c.kind = k)

section
variable (settings : Settings) (sources : List Source) (k : Kind) (label : String)

theorem profile_ofSources_get :
    (ofSources settings sources).profile.get k = (shelf settings sources k).profile settings.maxBins :=
  Tally.profile_ofContributions_get settings.maxBins (contributions settings sources) k

theorem ascending_contributions_filter :
    ((contributions settings sources).filter fun c => c.kind = k).Pairwise fun c d => c.ordinal < d.ordinal :=
  (pairwise_ordinal_contributions settings sources).filter _

theorem labelCounts_shelf :
    (shelf settings sources k).labelCounts[label]? =
      positive? (((Source.ofKind k sources).flatMap (Source.rowLabels settings)).count label) := by
  have h := flatMap_contributions settings (g := fun c => (c.labelCounts[label]?).toList)
    (f := fun s => ((s.partition? settings label).map Partition.rowCount).toList)
    (fun _ s c hc => congrArg Option.toList (hc.labelCounts_eq label))
    (fun s hs => by rw [Source.partition?_of_labelColumn?_eq_none hs]; rfl) k sources
  rw [← List.filterMap_eq_flatMap_toList, ← List.filterMap_eq_flatMap_toList] at h
  simp only [Source.rowCount_partition?] at h
  rw [shelf, Shelf.labelCounts_ofContributions, h, Shelf.addUp_positive?, List.count_flatMap]
  rfl

theorem item_kept_shelf (name : String) :
    ((shelf settings sources k).kept label name).map Ranked.item =
      match settings.policy with
      | .replace => ((Source.ofKind k sources).filterMap fun s => s.record? settings label name).getLast?
      | .combine => none := by
  have h := flatMap_contributions settings (g := fun c => (c.record? label name).toList)
    (f := fun s => match settings.policy with
      | .replace => (s.record? settings label name).toList
      | .combine => [])
    (fun _ s c hc => by rw [hc.record?_eq]; cases settings.policy <;> rfl)
    (fun s hs => by
      rw [Source.record?, Source.partition?_of_labelColumn?_eq_none hs]
      cases settings.policy <;> rfl) k sources
  rw [shelf, Shelf.item_kept_of_ascending (ascending_contributions_filter settings sources k),
    List.filterMap_eq_flatMap_toList, h]
  cases settings.policy with
  | replace => rw [List.filterMap_eq_flatMap_toList, Source.ofKind]
  | combine => simp

theorem items_sorted_pool_shelf :
    (Ranked.sorted ((shelf settings sources k).pool label)).map Ranked.item =
      match settings.policy with
      | .replace => []
      | .combine => Source.partitions settings label (Source.ofKind k sources) := by
  have h := flatMap_contributions settings (g := fun c => c.partitions label)
    (f := fun s => match settings.policy with
      | .replace => []
      | .combine => (s.partition? settings label).toList)
    (fun _ s c hc => hc.partitions_eq label)
    (fun s hs => by
      rw [Source.partition?_of_labelColumn?_eq_none hs]
      cases settings.policy <;> rfl) k sources
  rw [shelf, Shelf.items_sorted_pool_of_ascending (ascending_contributions_filter settings sources k), h]
  cases settings.policy with
  | replace => simp
  | combine => rw [Source.partitions, List.filterMap_eq_flatMap_toList, Source.ofKind]

end

/-- Every label is counted once, so the counts of all labels are the length of the list. -/
theorem sum_counts {counts : ExtTreeMap String Nat} {labels : List String}
    (h : ∀ label : String, counts[label]? = positive? (labels.count label)) :
    (counts.toList.map Prod.snd).sum = labels.length := by
  have hvalues : counts.toList.map Prod.snd = counts.keys.map fun label => labels.count label := by
    rw [← ExtTreeMap.map_fst_toList_eq_keys, List.map_map]
    apply List.map_congr_left
    intro entry hentry
    have hcount := h entry.1
    rw [ExtTreeMap.mem_toList_iff_getElem?_eq_some.1 hentry] at hcount
    exact eq_of_positive? hcount.symm
  have hkeys : counts.keys.Perm labels.dedup := by
    rw [List.perm_ext_iff_of_nodup ExtTreeMap.nodup_keys labels.nodup_dedup]
    intro label
    rw [ExtTreeMap.mem_keys, ExtTreeMap.mem_iff_isSome_getElem?, h, isSome_positive?, List.mem_dedup,
      List.count_pos_iff]
  rw [hvalues, (hkeys.map _).sum_eq, List.sum_map_count_dedup_eq_length]

/-- All partitions have the same label column, so that of the first does not matter. -/
theorem attributes_stack {parts : List Partition} {labelColumn : String}
    (h : ∀ p ∈ parts, p.labelColumn = labelColumn) (maxBins : Nat) (label : String) :
    let t := Table.stack (parts.map Partition.table)
    (Partition.mk label (parts.head?.elim "" Partition.labelColumn) t).attributes maxBins =
      (Partition.mk label labelColumn t).attributes maxBins := by
  intro t
  cases parts with
  | nil => rfl
  | cons p parts => rw [List.head?_cons, Option.elim_some, h p List.mem_cons_self]

section
variable (settings : Settings) (sources : List Source) (k : Kind) (label : String)

theorem labelCounts_ofSources :
    ((ofSources settings sources).profile.get k).labelCounts[label]? =
      positive? (((Source.ofKind k sources).flatMap (Source.rowLabels settings)).count label) := by
  rw [profile_ofSources_get, Shelf.labelCounts_profile, labelCounts_shelf]

theorem total_ofSources :
    ((ofSources settings sources).profile.get k).total =
      ((Source.ofKind k sources).flatMap (Source.rowLabels settings)).length := by
  rw [profile_ofSources_get, Shelf.total_profile]
  exact sum_counts (labelCounts_shelf settings sources k)

theorem record?_ofSources_replace (name : String) :
    ((ofSources (settings.withPolicy .replace) sources).profile.get k).record? label name =
      ((Source.ofKind k sources).filterMap fun s => s.record? settings label name).getLast? := by
  have hpool := items_sorted_pool_shelf (settings.withPolicy .replace) sources k label
  have hkept := item_kept_shelf (settings.withPolicy .replace) sources k label name
  simp only [Settings.withPolicy] at hpool hkept
  rw [profile_ofSources_get, Shelf.record?_profile, Shelf.pooled]
  simp only [Settings.withPolicy, hpool, hkept]
  exact Option.none_or

/-- All rows of a label in the sources of a kind, as one partition. -/
def stacked (settings : Settings) (sources : List Source) (k : Kind) (label : String) : Partition where
  label := label
  labelColumn := settings.labelColumns.get k
  table := .stack ((Source.partitions settings label (Source.ofKind k sources)).map Partition.table)

theorem record?_ofSources_combine (name : String) :
    ((ofSources (settings.withPolicy .combine) sources).profile.get k).record? label name =
      ((stacked settings sources k label).attributes settings.maxBins)[name]? := by
  have hpool := items_sorted_pool_shelf (settings.withPolicy .combine) sources k label
  have hkept := item_kept_shelf (settings.withPolicy .combine) sources k label name
  simp only [Settings.withPolicy] at hpool hkept
  rw [profile_ofSources_get, Shelf.record?_profile, Shelf.pooled]
  simp only [Settings.withPolicy, hpool, hkept, Option.or_none]
  exact congrArg (fun found : Attributes => found[name]?) (attributes_stack
    (Source.labelColumn_partitions settings label k sources) settings.maxBins label)

theorem occupied_ofSources : ((ofSources settings sources).profile.get k).Occupied := by
  rw [profile_ofSources_get]
  exact Shelf.occupied_profile settings.maxBins (shelf settings sources k)

theorem getD_attributes_ofSources_combine :
    ((ofSources (settings.withPolicy .combine) sources).profile.get k).attributes[label]?.getD ∅ =
      (stacked settings sources k label).attributes settings.maxBins :=
  Section.getD_attributes_of_record? (occupied_ofSources _ sources k)
    (record?_ofSources_combine settings sources k label)

theorem attributes_ofSources_combine_eq_none_iff :
    ((ofSources (settings.withPolicy .combine) sources).profile.get k).attributes[label]? = none ↔
      (stacked settings sources k label).attributes settings.maxBins = ∅ :=
  Section.attributes_eq_none_iff_of_record? (occupied_ofSources _ sources k)
    (record?_ofSources_combine settings sources k label)

end

section
variable {settings : Settings} {β : Type} {f : Source → List β}
  (hf : ∀ s : Source, s.labelColumn? settings = none → f s = [])
include hf

theorem flatMap_contributing (sources : List Source) :
    (sources.filter fun s => s.contributes settings).flatMap f = sources.flatMap f := by
  induction sources with
  | nil => rfl
  | cons s sources ih =>
    by_cases hc : s.contributes settings = true
    · rw [List.filter_cons_of_pos hc, List.flatMap_cons, List.flatMap_cons, ih]
    · have hnone : f s = [] := hf s (by simpa [Source.contributes] using hc)
      rw [List.filter_cons_of_neg hc, List.flatMap_cons, ih, hnone, List.nil_append]

theorem flatMap_ofKind_contributing (k : Kind) (sources : List Source) :
    (Source.ofKind k (sources.filter fun s => s.contributes settings)).flatMap f =
      (Source.ofKind k sources).flatMap f := by
  rw [Source.ofKind, List.filter_comm]
  exact flatMap_contributing hf (Source.ofKind k sources)

end

theorem partitions_contributing (settings : Settings) (label : String) (k : Kind) (sources : List Source) :
    Source.partitions settings label (Source.ofKind k (sources.filter fun s => s.contributes settings)) =
      Source.partitions settings label (Source.ofKind k sources) := by
  rw [Source.partitions, Source.partitions, List.filterMap_eq_flatMap_toList, List.filterMap_eq_flatMap_toList]
  apply flatMap_ofKind_contributing
  intro s hs
  rw [Source.partition?_of_labelColumn?_eq_none hs, Option.toList_none]

theorem rowLabels_contributing (settings : Settings) (k : Kind) (sources : List Source) :
    (Source.ofKind k (sources.filter fun s => s.contributes settings)).flatMap (Source.rowLabels settings) =
      (Source.ofKind k sources).flatMap (Source.rowLabels settings) := by
  apply flatMap_ofKind_contributing
  intro s hs
  rw [Source.rowLabels, hs, Option.elim_none]

theorem profile_ofSources_contributing (settings : Settings) (sources : List Source) :
    (ofSources settings (sources.filter fun s => s.contributes settings)).profile =
      (ofSources settings sources).profile := by
  apply Profile.eq_of_get
  intro k
  rw [profile_ofSources_get, profile_ofSources_get]
  apply Shelf.profile_eq_of_lookups
  · intro label
    rw [labelCounts_shelf, labelCounts_shelf, rowLabels_contributing]
  · intro label name
    rw [item_kept_shelf, item_kept_shelf, Source.filterMap_record?, Source.filterMap_record?, partitions_contributing]
  · intro label
    rw [items_sorted_pool_shelf, items_sorted_pool_shelf, partitions_contributing]

end Report
end GraphProfile
