import GraphProfile.Proofs.Partitions
import GraphProfile.Proofs.Shelves
import GraphProfile.Run.Report

set_option autoImplicit false

namespace GraphProfile
open Std

def positive? (n : Nat) : Option Nat := if n = 0 then none else some n

theorem positive?_zero : positive? 0 = none := rfl

theorem positive?_of_ne {n : Nat} (h : n ≠ 0) : positive? n = some n := if_neg h

theorem isSome_positive? (n : Nat) : (positive? n).isSome ↔ 0 < n := by
  by_cases h : n = 0
  · simp [h, positive?_zero]
  · simp [positive?_of_ne h]
    omega

theorem eq_of_positive? {m n : Nat} (h : positive? m = some n) : n = m := by
  by_cases hm : m = 0
  · rw [hm, positive?_zero] at h
    cases h
  · rw [positive?_of_ne hm] at h
    exact (Option.some.inj h).symm

namespace Source

/-- The label column of a source that loads and has one. -/
def labelColumn? (settings : Settings) (s : Source) : Option Column :=
  s.table.toOption.bind fun t => t.column? (settings.labelColumns.get s.kind)

def contributes (settings : Settings) (s : Source) : Bool := (s.labelColumn? settings).isSome

/-- The labels of the rows that have one, as they read. -/
def rowLabels (settings : Settings) (s : Source) : List String :=
  (s.labelColumn? settings).elim [] fun labels => labels.values.filterMap (Option.map Value.display)

def partition? (settings : Settings) (s : Source) (label : String) : Option Partition :=
  (s.table.toOption.bind fun t => t.partition? (settings.labelColumns.get s.kind)).bind fun parts =>
    parts.find? fun p => p.label = label

/-- The record that the source's own rows of the label give for an attribute. -/
def record? (settings : Settings) (s : Source) (label name : String) : Option Record :=
  (s.partition? settings label).bind fun p => (p.attributes settings.maxBins)[name]?

theorem partition?_eq {settings : Settings} {s : Source} {t : Table} {labels : Column} (ht : s.table = .ok t)
    (hl : t.column? (settings.labelColumns.get s.kind) = some labels) (label : String) :
    s.partition? settings label =
      ((Table.rowsByLabel labels.values)[label]?).map (t.partition (settings.labelColumns.get s.kind) label) := by
  rw [partition?, ht, Except.toOption, Option.bind_some, Table.partition?, hl, Option.map_some, Option.bind_some,
    ← List.head?_filter, Table.filter_partitions]
  cases (Table.rowsByLabel labels.values)[label]? <;> rfl

theorem partition?_of_labelColumn?_eq_none {settings : Settings} {s : Source} (h : s.labelColumn? settings = none)
    (label : String) : s.partition? settings label = none := by
  rw [labelColumn?] at h
  rw [partition?]
  cases ht : s.table.toOption with
  | none => rfl
  | some t =>
    rw [ht, Option.bind_some] at h
    rw [Option.bind_some, Table.partition?, h]
    rfl

theorem labelColumn?_eq_some {settings : Settings} {s : Source} {labels : Column}
    (h : s.labelColumn? settings = some labels) :
    ∃ t, s.table = .ok t ∧ t.column? (settings.labelColumns.get s.kind) = some labels := by
  obtain ⟨t, ht, hl⟩ := Option.bind_eq_some_iff.1 h
  cases hs : s.table with
  | error e =>
    rw [hs] at ht
    cases ht
  | ok u =>
    rw [hs] at ht
    cases ht
    exact ⟨t, rfl, hl⟩

theorem labelColumn_partition? {settings : Settings} {s : Source} {label : String} {p : Partition}
    (h : s.partition? settings label = some p) : p.labelColumn = settings.labelColumns.get s.kind := by
  cases hl : s.labelColumn? settings with
  | none =>
    rw [partition?_of_labelColumn?_eq_none hl] at h
    cases h
  | some labels =>
    obtain ⟨t, ht, hc⟩ := labelColumn?_eq_some hl
    rw [partition?_eq ht hc] at h
    obtain ⟨rows, -, rfl⟩ := Option.map_eq_some_iff.1 h
    rfl

theorem rowCount_partition? (settings : Settings) (s : Source) (label : String) :
    (s.partition? settings label).map Partition.rowCount = positive? ((s.rowLabels settings).count label) := by
  rw [rowLabels]
  cases hl : s.labelColumn? settings with
  | none =>
    rw [partition?_of_labelColumn?_eq_none hl]
    rfl
  | some labels =>
    obtain ⟨t, ht, hc⟩ := labelColumn?_eq_some hl
    rw [partition?_eq ht hc, Table.getElem?_rowsByLabel, Option.elim_some, ← Table.length_rowsReading]
    cases Table.rowsReading label labels.values.zipIdx <;> rfl

end Source

namespace Outcome

variable (settings : Settings) (ordinal : Nat) (s : Source)

theorem contribution?_ofSource :
    (ofSource settings ordinal s).contribution? =
      s.table.toOption.bind (Contribution.ofTable? settings s.name s.kind ordinal) := by
  rw [ofSource]
  cases s.table with
  | error e => rfl
  | ok t =>
    simp only [Except.toOption, Option.bind_some]
    cases Contribution.ofTable? settings s.name s.kind ordinal t <;> rfl

theorem isSome_contribution?_ofSource :
    (ofSource settings ordinal s).contribution?.isSome = s.contributes settings := by
  rw [contribution?_ofSource, Source.contributes, Source.labelColumn?]
  cases s.table.toOption with
  | none => rfl
  | some t =>
    simp [Contribution.ofTable?, Table.partition?]

end Outcome

namespace Contribution

/-- `c` is what the source gives as the one at position `ordinal`. -/
structure IsFrom (settings : Settings) (ordinal : Nat) (s : Source) (c : Contribution) : Prop where
  kind_eq : c.kind = s.kind
  ordinal_eq : c.ordinal = ordinal
  labelCounts_eq : ∀ label, c.labelCounts[label]? = (s.partition? settings label).map Partition.rowCount
  record?_eq : ∀ label name, c.record? label name =
    match settings.policy with
    | .replace => s.record? settings label name
    | .combine => none
  partitions_eq : ∀ label, c.partitions label =
    match settings.policy with
    | .replace => []
    | .combine => (s.partition? settings label).toList

theorem getElem?_countLabels (t : Table) (labelColumn : String) (groups : ExtTreeMap String (List Nat))
    (label : String) :
    (countLabels (t.partitions labelColumn groups))[label]? =
      (groups[label]?.map (t.partition labelColumn label)).map Partition.rowCount := by
  rw [countLabels, ofList_partitions, ExtTreeMap.getElem?_map, Option.map_map]
  rfl

theorem getElem?_measure (maxBins : Nat) (t : Table) (labelColumn : String) (groups : ExtTreeMap String (List Nat))
    (label : String) :
    (measure maxBins (t.partitions labelColumn groups))[label]? =
      (groups[label]?.map (t.partition labelColumn label)).map (Partition.attributes maxBins) := by
  rw [measure, ofList_partitions, ExtTreeMap.getElem?_map, Option.map_map]
  rfl

theorem isFrom_of_contribution? {settings : Settings} {ordinal : Nat} {s : Source} {c : Contribution}
    (h : (Outcome.ofSource settings ordinal s).contribution? = some c) : IsFrom settings ordinal s c := by
  rw [Outcome.contribution?_ofSource] at h
  cases ht : s.table with
  | error e =>
    rw [ht] at h
    cases h
  | ok t =>
    rw [ht, Except.toOption, Option.bind_some, ofTable?, Table.partition?, Option.map_map] at h
    obtain ⟨labels, hl, rfl⟩ := Option.map_eq_some_iff.1 h
    have hpart := Source.partition?_eq ht hl
    refine ⟨rfl, rfl, ?_, ?_, ?_⟩
    · intro label
      rw [hpart]
      exact getElem?_countLabels ..
    · intro label name
      simp only [record?, Function.comp_apply, shareOf, Source.record?, hpart]
      cases settings.policy with
      | replace =>
        simp only [getElem?_measure]
        cases (Table.rowsByLabel labels.values)[label]? <;> rfl
      | combine => rfl
    · intro label
      simp only [partitions, Function.comp_apply, shareOf, hpart]
      cases settings.policy with
      | replace => rfl
      | combine => exact Table.filter_partitions ..

end Contribution

namespace Report

theorem contributions_eq (settings : Settings) (sources : List Source) :
    contributions settings sources =
      sources.zipIdx.filterMap fun p => (Outcome.ofSource settings p.2 p.1).contribution? := by
  rw [contributions, outcomes, List.mapIdx_eq_zipIdx_map, List.filterMap_map]
  rfl

theorem pairwise_ordinal_contributions (settings : Settings) (sources : List Source) :
    (contributions settings sources).Pairwise fun c d => c.ordinal < d.ordinal := by
  rw [contributions_eq, List.pairwise_filterMap]
  have hindex : sources.zipIdx.Pairwise fun p q => p.2 < q.2 := by
    rw [← List.pairwise_map, List.zipIdx_map_snd]
    exact List.pairwise_lt_range'
  refine hindex.imp ?_
  intro p q hpq c hc d hd
  rw [(Contribution.isFrom_of_contribution? hc).ordinal_eq, (Contribution.isFrom_of_contribution? hd).ordinal_eq]
  exact hpq

section
variable (settings : Settings) {β : Type} {g : Contribution → List β} {f : Source → List β}
  (hsome : ∀ ordinal s c, Contribution.IsFrom settings ordinal s c → g c = f s)
  (hnone : ∀ s : Source, s.labelColumn? settings = none → f s = [])
include hsome hnone

theorem flatMap_contributions_from (k : Kind) (sources : List Source) (n : Nat) :
    (((sources.zipIdx n).filterMap fun p => (Outcome.ofSource settings p.2 p.1).contribution?).filter
        fun c => c.kind = k).flatMap g = (sources.filter fun s => s.kind = k).flatMap f := by
  -- the ordinals of the other sources go on from the next one
  induction sources generalizing n with
  | nil => rfl
  | cons s sources ih =>
    rw [List.zipIdx_cons, List.filterMap_cons]
    have hcontributes := Outcome.isSome_contribution?_ofSource settings n s
    cases hc : (Outcome.ofSource settings n s).contribution? with
    | none =>
      rw [hc, Option.isSome_none] at hcontributes
      have hf : f s = [] := hnone s (Option.isSome_eq_false_iff.1 hcontributes.symm |> Option.isNone_iff_eq_none.1)
      rw [List.filter_cons]
      by_cases hk : s.kind = k
      · simp [hk, hf, ih]
      · simp [hk, ih]
    | some c =>
      have hfrom := Contribution.isFrom_of_contribution? hc
      have hg := hsome n s c hfrom
      have hkind := hfrom.kind_eq
      by_cases hk : s.kind = k
      · simp [hk, hkind, hg, ih]
      · simp [hk, hkind, ih]

theorem flatMap_contributions (k : Kind) (sources : List Source) :
    ((contributions settings sources).filter fun c => c.kind = k).flatMap g =
      (sources.filter fun s => s.kind = k).flatMap f := by
  rw [contributions_eq]
  exact flatMap_contributions_from settings hsome hnone k sources 0

end

end Report
end GraphProfile
