import GraphProfile.Proofs.Shelves

set_option autoImplicit false

namespace GraphProfile
open Std

namespace Contribution

theorem filter_ordinal_eq_of_perm {cs ds : List Contribution} (hp : cs.Perm ds) (hd : (cs.map ordinal).Nodup)
    (n : Nat) : (cs.filter fun c => c.ordinal = n) = ds.filter fun c => c.ordinal = n := by
  -- at most one contribution has the ordinal `n`
  have hone : ∀ es : List Contribution, (es.map ordinal).Nodup →
      (es.filter fun c => c.ordinal = n).Pairwise fun _ _ => False := by
    intro es he
    rw [List.pairwise_filter]
    refine (List.pairwise_map.1 he).imp ?_
    intro c d hne hc hd
    exact hne ((of_decide_eq_true hc).trans (of_decide_eq_true hd).symm)
  exact List.Perm.eq_of_pairwise (fun _ _ _ _ h => h.elim) (hone cs hd) (hone ds ((hp.map ordinal).nodup_iff.1 hd))
    (hp.filter _)

theorem filter_rankedPartitions (cs : List Contribution) (label : String) (n : Nat) :
    ((cs.flatMap fun c => c.rankedPartitions label).filter fun p => p.ordinal = n) =
      (cs.filter fun c => c.ordinal = n).flatMap fun c => c.rankedPartitions label := by
  induction cs with
  | nil => rfl
  | cons c cs ih =>
    rw [List.flatMap_cons, List.filter_append, ih, List.filter_cons]
    by_cases h : c.ordinal = n
    · have hall : ((c.rankedPartitions label).filter fun p => p.ordinal = n) = c.rankedPartitions label := by
        rw [List.filter_eq_self]
        intro p hp
        exact decide_eq_true ((ordinal_of_mem_rankedPartitions hp).trans h)
      simp [hall, h]
    · have hnone : ((c.rankedPartitions label).filter fun p => p.ordinal = n) = [] := by
        rw [List.filter_eq_nil_iff]
        intro p hp hn
        exact h ((ordinal_of_mem_rankedPartitions hp).symm.trans (of_decide_eq_true hn))
      simp [hnone, h]

theorem nodup_ordinal_rankedRecord? {cs : List Contribution} (hd : (cs.map ordinal).Nodup) (label name : String) :
    ((cs.filterMap fun c => c.rankedRecord? label name).map Ranked.ordinal).Nodup := by
  rw [List.Nodup, List.pairwise_map, List.pairwise_filterMap]
  refine (List.pairwise_map.1 hd).imp ?_
  intro c d hne r hr s hs
  rw [ordinal_of_rankedRecord? hr, ordinal_of_rankedRecord? hs]
  exact hne

theorem nodup_ordinal_filter {cs : List Contribution} (hd : (cs.map ordinal).Nodup) (p : Contribution → Bool) :
    ((cs.filter p).map ordinal).Nodup :=
  hd.sublist (List.filter_sublist.map ordinal)

end Contribution

namespace Shelf

theorem addUp_perm {found found' : List Nat} (h : found.Perm found') : addUp found = addUp found' := by
  rw [addUp, addUp, h.isEmpty_eq, h.sum_nat]

theorem profile_perm {cs ds : List Contribution} (hp : cs.Perm ds) (hd : (cs.map Contribution.ordinal).Nodup)
    (maxBins : Nat) : (ofContributions cs).profile maxBins = (ofContributions ds).profile maxBins := by
  apply profile_eq_of_lookups
  · intro label
    rw [labelCounts_ofContributions, labelCounts_ofContributions, addUp_perm (hp.filterMap _)]
  · intro label name
    rw [kept_ofContributions, kept_ofContributions, Ranked.keepFrom_perm (hp.filterMap _)
      (Contribution.nodup_ordinal_rankedRecord? hd label name)]
  · intro label
    rw [pool_ofContributions, pool_ofContributions]
    congr 1
    apply Ranked.sorted_eq_of_filter_eq
    intro n
    rw [Contribution.filter_rankedPartitions, Contribution.filter_rankedPartitions,
      Contribution.filter_ordinal_eq_of_perm hp hd n]

end Shelf

namespace Tally

theorem profile_eq_of_shelves {cs ds : List Contribution} {maxBins : Nat}
    (h : ∀ k, (Shelf.ofContributions (cs.filter fun c => c.kind = k)).profile maxBins =
      (Shelf.ofContributions (ds.filter fun c => c.kind = k)).profile maxBins) :
    (ofContributions cs).profile maxBins = (ofContributions ds).profile maxBins := by
  apply Profile.eq_of_get
  intro k
  rw [profile_ofContributions_get, profile_ofContributions_get, h]

/-- Contributions of any kinds and shares, with whatever labels and attributes in common, give the same profile in
    every order in which they are merged. -/
theorem profile_ofContributions_perm {cs ds : List Contribution} (hp : cs.Perm ds)
    (hd : (cs.map Contribution.ordinal).Nodup) (maxBins : Nat) :
    (ofContributions cs).profile maxBins = (ofContributions ds).profile maxBins := by
  apply profile_eq_of_shelves
  intro k
  exact Shelf.profile_perm (hp.filter _) (Contribution.nodup_ordinal_filter hd _) maxBins

/-- Records and partitions of one label, vertices and edges, with the last to come merged first. -/
theorem profile_ofContributions_perm_mixed :
    let known : Contribution := ⟨"a", .vertex, 0, ExtTreeMap.ofList [("Person", 2)],
      .records (ExtTreeMap.ofList [("Person", ExtTreeMap.ofList [("age", Record.empty .int),
        ("name", Record.empty .string)])])⟩
    let pooled : Contribution := ⟨"b", .vertex, 1, ExtTreeMap.ofList [("Person", 1)],
      .partitions [⟨"Person", ":LABEL", ⟨[⟨"age", none, [some (.int 7)]⟩], 1⟩⟩]⟩
    let edges : Contribution := ⟨"c", .edge, 2, ExtTreeMap.ofList [("KNOWS", 1)],
      .records (ExtTreeMap.ofList [("KNOWS", ExtTreeMap.ofList [("age", Record.empty .float)])])⟩
    let renewed : Contribution := ⟨"d", .vertex, 3, ExtTreeMap.ofList [("Person", 1)],
      .records (ExtTreeMap.ofList [("Person", ExtTreeMap.ofList [("age", Record.empty .float)])])⟩
    [known, pooled, edges, renewed].Perm [edges, renewed, known, pooled] ∧
      ([known, pooled, edges, renewed].map Contribution.ordinal).Nodup ∧
      (ofContributions [known, pooled, edges, renewed]).profile 10 =
        (ofContributions [edges, renewed, known, pooled]).profile 10 := by
  intro known pooled edges renewed
  have hp : [known, pooled, edges, renewed].Perm [edges, renewed, known, pooled] :=
    (List.perm_append_comm : ([known, pooled] ++ [edges, renewed]).Perm ([edges, renewed] ++ [known, pooled]))
  have hd : ([known, pooled, edges, renewed].map Contribution.ordinal).Nodup := by decide
  exact ⟨hp, hd, profile_ofContributions_perm hp hd 10⟩

end Tally
end GraphProfile
