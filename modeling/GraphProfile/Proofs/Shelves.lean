import GraphProfile.Proofs.Ranked
import GraphProfile.Proofs.Sections

set_option autoImplicit false

namespace GraphProfile
open Std

namespace Contribution

def record? (c : Contribution) (label name : String) : Option Record :=
  match c.share with
  | .records byLabel => byLabel[label]?.bind fun found => found[name]?
  | .partitions _ => none

def partitions (c : Contribution) (label : String) : List Partition :=
  match c.share with
  | .records _ => []
  | .partitions parts => parts.filter fun p => p.label = label

def rankedRecord? (c : Contribution) (label name : String) : Option (Ranked Record) :=
  (c.record? label name).map (Ranked.mk c.ordinal)

def rankedPartitions (c : Contribution) (label : String) : List (Ranked Partition) :=
  (c.partitions label).map (Ranked.mk c.ordinal)

theorem ordinal_of_rankedRecord? {c : Contribution} {label name : String} {r : Ranked Record}
    (h : c.rankedRecord? label name = some r) : r.ordinal = c.ordinal := by
  obtain ⟨_, _, rfl⟩ := Option.map_eq_some_iff.1 h
  rfl

theorem ordinal_of_mem_rankedPartitions {c : Contribution} {label : String} {p : Ranked Partition}
    (h : p ∈ c.rankedPartitions label) : p.ordinal = c.ordinal := by
  obtain ⟨_, _, rfl⟩ := List.mem_map.1 h
  rfl

end Contribution

namespace Shelf

def kept (s : Shelf) (label name : String) : Option (Ranked Record) :=
  s.records[label]?.bind fun found => found[name]?

def pool (s : Shelf) (label : String) : List (Ranked Partition) := s.pools[label]?.getD []

theorem labelCounts_addCounts (s : Shelf) (counts : ExtTreeMap String Nat) (label : String) :
    (s.addCounts counts).labelCounts[label]? =
      counts[label]?.elim s.labelCounts[label]? fun n => some (s.labelCounts[label]?.getD 0 + n) :=
  getElem?_foldl_toList_alter counts (fun n old => old.getD 0 + n) s.labelCounts label

theorem getElem?_keepAll (ordinal : Nat) (found : Attributes) (kept : ExtTreeMap String (Ranked Record))
    (name : String) :
    (keepAll ordinal found kept)[name]? =
      found[name]?.elim kept[name]? fun r => some (Ranked.keep ⟨ordinal, r⟩ kept[name]?) :=
  getElem?_foldl_toList_alter found (fun r old => Ranked.keep ⟨ordinal, r⟩ old) kept name

theorem kept_addRecords (s : Shelf) (ordinal : Nat) (byLabel : ExtTreeMap String Attributes) (label name : String) :
    (s.addRecords ordinal byLabel).kept label name =
      (byLabel[label]?.bind fun found => found[name]?).elim (s.kept label name)
        fun r => some (Ranked.keep ⟨ordinal, r⟩ (s.kept label name)) := by
  have h := getElem?_foldl_toList_alter byLabel (fun found old => keepAll ordinal found (old.getD ∅)) s.records label
  simp only [kept, addRecords, h]
  cases byLabel[label]? with
  | none => rfl
  | some found =>
    simp only [Option.elim_some, Option.bind_some, getElem?_keepAll]
    cases s.records[label]? <;> simp

theorem pool_foldl (ordinal : Nat) (parts : List Partition) (old : Option (List (Ranked Partition))) :
    (parts.foldl (fun old p => some (old.getD [] ++ [⟨ordinal, p⟩])) old).getD [] =
      old.getD [] ++ parts.map (Ranked.mk ordinal) := by
  induction parts generalizing old with
  | nil => simp
  | cons p parts ih =>
    rw [List.foldl_cons, ih, Option.getD_some, List.map_cons, List.append_assoc]
    rfl

theorem pool_addPartitions (s : Shelf) (ordinal : Nat) (parts : List Partition) (label : String) :
    (s.addPartitions ordinal parts).pool label =
      s.pool label ++ (parts.filter fun p => p.label = label).map (Ranked.mk ordinal) := by
  have h := getElem?_foldl_alter Partition.label (fun p old => old.getD [] ++ [Ranked.mk ordinal p]) parts s.pools label
  simp only [pool, addPartitions, h, pool_foldl]

theorem labelCounts_merge (s : Shelf) (c : Contribution) (label : String) :
    (s.merge c).labelCounts[label]? =
      c.labelCounts[label]?.elim s.labelCounts[label]? fun n => some (s.labelCounts[label]?.getD 0 + n) := by
  rw [merge]
  cases c.share with
  | records byLabel => exact labelCounts_addCounts s c.labelCounts label
  | partitions parts => exact labelCounts_addCounts s c.labelCounts label

theorem kept_merge (s : Shelf) (c : Contribution) (label name : String) :
    (s.merge c).kept label name =
      (c.rankedRecord? label name).elim (s.kept label name) fun r => some (Ranked.keep r (s.kept label name)) := by
  rw [merge, Contribution.rankedRecord?, Contribution.record?]
  cases c.share with
  | records byLabel =>
    have h := kept_addRecords (s.addCounts c.labelCounts) c.ordinal byLabel label name
    simp only [h]
    cases byLabel[label]?.bind fun found => found[name]? <;> rfl
  | partitions parts => rfl

theorem pool_merge (s : Shelf) (c : Contribution) (label : String) :
    (s.merge c).pool label = s.pool label ++ c.rankedPartitions label := by
  rw [merge, Contribution.rankedPartitions, Contribution.partitions]
  cases c.share with
  | records byLabel => exact (List.append_nil _).symm
  | partitions parts => exact pool_addPartitions (s.addCounts c.labelCounts) c.ordinal parts label

def ofContributions (cs : List Contribution) : Shelf := cs.foldl merge empty

/-- Without any count there is no sum either. -/
def addUp (found : List Nat) : Option Nat := if found.isEmpty then none else some found.sum

theorem foldl_addUp (found : List Nat) (old : Option Nat) :
    found.foldl (fun old n => some (old.getD 0 + n)) old =
      if found.isEmpty then old else some (old.getD 0 + found.sum) := by
  induction found generalizing old with
  | nil => rfl
  | cons n found ih =>
    rw [List.foldl_cons, ih, Option.getD_some, List.sum_cons]
    cases found with
    | nil => rfl
    | cons _ _ => simp [Nat.add_assoc]

theorem labelCounts_foldl_merge (cs : List Contribution) (s : Shelf) (label : String) :
    (cs.foldl merge s).labelCounts[label]? =
      (cs.filterMap fun c => c.labelCounts[label]?).foldl (fun old n => some (old.getD 0 + n))
        s.labelCounts[label]? := by
  induction cs generalizing s with
  | nil => rfl
  | cons c cs ih =>
    rw [List.foldl_cons, ih, labelCounts_merge, List.filterMap_cons]
    cases c.labelCounts[label]? <;> rfl

theorem labelCounts_ofContributions (cs : List Contribution) (label : String) :
    (ofContributions cs).labelCounts[label]? = addUp (cs.filterMap fun c => c.labelCounts[label]?) := by
  rw [ofContributions, labelCounts_foldl_merge, foldl_addUp, addUp]
  simp [empty]

theorem kept_foldl_merge (cs : List Contribution) (s : Shelf) (label name : String) :
    (cs.foldl merge s).kept label name =
      Ranked.keepFrom (s.kept label name) (cs.filterMap fun c => c.rankedRecord? label name) := by
  induction cs generalizing s with
  | nil => rfl
  | cons c cs ih =>
    rw [List.foldl_cons, ih, kept_merge, List.filterMap_cons]
    cases c.rankedRecord? label name <;> rfl

theorem kept_ofContributions (cs : List Contribution) (label name : String) :
    (ofContributions cs).kept label name =
      Ranked.keepFrom none (cs.filterMap fun c => c.rankedRecord? label name) :=
  kept_foldl_merge cs empty label name

theorem pool_foldl_merge (cs : List Contribution) (s : Shelf) (label : String) :
    (cs.foldl merge s).pool label = s.pool label ++ cs.flatMap fun c => c.rankedPartitions label := by
  induction cs generalizing s with
  | nil => exact (List.append_nil _).symm
  | cons c cs ih => rw [List.foldl_cons, ih, pool_merge, List.append_assoc, List.flatMap_cons]

theorem pool_ofContributions (cs : List Contribution) (label : String) :
    (ofContributions cs).pool label = cs.flatMap fun c => c.rankedPartitions label :=
  pool_foldl_merge cs empty label

theorem profile_eq (maxBins : Nat) (s : Shelf) :
    s.profile maxBins =
      ((Section.counted s.labelCounts).setAll s.records fun _ found => found.map fun _ kept => kept.item).setAll
        s.pools fun label pool => (pooled label pool).attributes maxBins := rfl

theorem attributes_stack_nil (maxBins : Nat) (label labelColumn : String) :
    (Partition.mk label labelColumn (Table.stack [])).attributes maxBins = ∅ := rfl

theorem pooled_nil (label : String) : pooled label [] = ⟨label, "", Table.stack []⟩ := by
  rw [pooled, Ranked.sorted, List.mergeSort_nil]
  rfl

theorem labelCounts_profile (maxBins : Nat) (s : Shelf) : (s.profile maxBins).labelCounts = s.labelCounts := by
  rw [profile_eq, Section.labelCounts_setAll, Section.labelCounts_setAll, Section.labelCounts_counted]

theorem total_profile (maxBins : Nat) (s : Shelf) :
    (s.profile maxBins).total = (s.labelCounts.toList.map Prod.snd).sum := by
  rw [profile_eq, Section.total_setAll, Section.total_setAll, Section.total_counted]

theorem record?_profile (maxBins : Nat) (s : Shelf) (label name : String) :
    (s.profile maxBins).record? label name =
      ((pooled label (s.pool label)).attributes maxBins)[name]?.or ((s.kept label name).map Ranked.item) := by
  have hpooled : (s.pools[label]?.bind fun pool => ((pooled label pool).attributes maxBins)[name]?) =
      ((pooled label (s.pool label)).attributes maxBins)[name]? := by
    rw [pool]
    cases s.pools[label]? with
    | none => rw [Option.getD_none, pooled_nil, attributes_stack_nil]; rfl
    | some pool => rfl
  have hkept : (s.records[label]?.bind fun found => (found.map fun _ kept => kept.item)[name]?) =
      (s.kept label name).map Ranked.item := by
    rw [kept]
    cases s.records[label]? with
    | none => rfl
    | some found => exact ExtTreeMap.getElem?_map
  rw [profile_eq, Section.record?_setAll, Section.record?_setAll, Section.record?_counted, hpooled, hkept,
    Option.or_none]

theorem occupied_profile (maxBins : Nat) (s : Shelf) : (s.profile maxBins).Occupied := by
  rw [profile_eq]
  exact Section.occupied_setAll _ _ (Section.occupied_setAll _ _ (Section.occupied_counted s.labelCounts))

/-- Ordinals leave no trace but in what is kept and in how a pool is sorted. -/
theorem profile_eq_of_lookups {s t : Shelf} (maxBins : Nat)
    (hcounts : ∀ label : String, s.labelCounts[label]? = t.labelCounts[label]?)
    (hkept : ∀ label name, (s.kept label name).map Ranked.item = (t.kept label name).map Ranked.item)
    (hpool : ∀ label,
      (Ranked.sorted (s.pool label)).map Ranked.item = (Ranked.sorted (t.pool label)).map Ranked.item) :
    s.profile maxBins = t.profile maxBins := by
  have hmap : s.labelCounts = t.labelCounts := ExtTreeMap.ext_getElem? fun label => hcounts label
  apply Section.eq_of_record? (occupied_profile maxBins s) (occupied_profile maxBins t)
  · rw [total_profile, total_profile, hmap]
  · rw [labelCounts_profile, labelCounts_profile, hmap]
  · intro label name
    rw [record?_profile, record?_profile, hkept, pooled, pooled, hpool]

end Shelf

namespace Tally

theorem shelves_foldl_merge (cs : List Contribution) (t : Tally) (k : Kind) :
    (cs.foldl merge t).shelves.get k = (cs.filter fun c => c.kind = k).foldl Shelf.merge (t.shelves.get k) := by
  induction cs generalizing t with
  | nil => rfl
  | cons c cs ih =>
    rw [List.foldl_cons, ih, merge, PerKind.get_modify, List.filter_cons]
    by_cases h : c.kind = k
    · simp [h]
    · simp [h]

theorem shelves_ofContributions (cs : List Contribution) (k : Kind) :
    (ofContributions cs).shelves.get k = Shelf.ofContributions (cs.filter fun c => c.kind = k) := by
  rw [ofContributions, shelves_foldl_merge, Shelf.ofContributions]
  cases k <;> rfl

theorem profile_get (maxBins : Nat) (t : Tally) (k : Kind) :
    (t.profile maxBins).get k = (t.shelves.get k).profile maxBins := by
  cases k <;> rfl

theorem profile_ofContributions_get (maxBins : Nat) (cs : List Contribution) (k : Kind) :
    ((ofContributions cs).profile maxBins).get k =
      (Shelf.ofContributions (cs.filter fun c => c.kind = k)).profile maxBins := by
  rw [profile_get, shelves_ofContributions]

end Tally

theorem Profile.eq_of_get {p q : Profile} (h : ∀ k, p.get k = q.get k) : p = q := by
  cases p
  cases q
  exact congrArg Profile.mk (PerKind.ext_get h)

end GraphProfile
