import GraphProfile.Profile.Decode
import Mathlib.Tactic

set_option autoImplicit false

namespace GraphProfile
open Std

namespace Bound

def Storable : Bound → Prop
  | .int _ => True
  | .float x => x.isFinite

instance : DecidablePred Storable
  | .int _ => inferInstanceAs (Decidable True)
  | .float x => inferInstanceAs (Decidable (x.isFinite = true))

end Bound

structure Histogram.Storable (h : Histogram) : Prop where
  edges : ∀ x ∈ h.edges, x.isFinite
  counts : ∀ n ∈ h.counts, n < UInt64.size
  frequencies : ∀ e ∈ h.frequencies.toList, e.2 < UInt64.size

instance (h : Histogram) : Decidable h.Storable :=
  decidable_of_iff ((∀ x ∈ h.edges, x.isFinite) ∧ (∀ n ∈ h.counts, n < UInt64.size) ∧
      ∀ e ∈ h.frequencies.toList, e.2 < UInt64.size)
    ⟨fun h => ⟨h.1, h.2.1, h.2.2⟩, fun h => ⟨h.edges, h.counts, h.frequencies⟩⟩

namespace Selectivity

def ranges (s : Selectivity) : List RangeMap := [s.gt, s.ge, s.lt, s.le]

structure Storable (s : Selectivity) : Prop where
  eq : s.eq.isFinite
  ne : s.ne.isFinite
  ranges : ∀ m ∈ s.ranges, ∀ e ∈ m.toList, e.2.isFinite

instance (s : Selectivity) : Decidable s.Storable :=
  decidable_of_iff (s.eq.isFinite ∧ s.ne.isFinite ∧ ∀ m ∈ s.ranges, ∀ e ∈ m.toList, e.2.isFinite)
    ⟨fun h => ⟨h.1, h.2.1, h.2.2⟩, fun h => ⟨h.eq, h.ne, h.ranges⟩⟩

def HasNumberKeys (s : Selectivity) : Prop := ∀ m ∈ s.ranges, ∀ e ∈ m.toList, e.1.value.isNaN = false

instance (s : Selectivity) : Decidable s.HasNumberKeys :=
  inferInstanceAs (Decidable (∀ m ∈ s.ranges, ∀ e ∈ m.toList, e.1.value.isNaN = false))

end Selectivity

namespace Record

structure Storable (r : Record) : Prop where
  count : r.count < UInt64.size
  nullCount : r.nullCount < UInt64.size
  distinctCount : r.distinctCount < UInt64.size
  least : ∀ b ∈ r.least, b.Storable
  greatest : ∀ b ∈ r.greatest, b.Storable
  histogram : r.histogram.Storable
  selectivity : r.selectivity.Storable

instance (r : Record) : Decidable r.Storable :=
  decidable_of_iff (r.count < UInt64.size ∧ r.nullCount < UInt64.size ∧ r.distinctCount < UInt64.size ∧
      (∀ b ∈ r.least, b.Storable) ∧ (∀ b ∈ r.greatest, b.Storable) ∧ r.histogram.Storable ∧ r.selectivity.Storable)
    ⟨fun ⟨hc, hn, hd, hl, hg, hh, hs⟩ => ⟨hc, hn, hd, hl, hg, hh, hs⟩,
      fun ⟨hc, hn, hd, hl, hg, hh, hs⟩ => ⟨hc, hn, hd, hl, hg, hh, hs⟩⟩

end Record

structure Section.Storable (s : Section) : Prop where
  total : s.total < UInt64.size
  labelCounts : ∀ e ∈ s.labelCounts.toList, e.2 < UInt64.size
  records : ∀ label ∈ s.attributes.toList, ∀ e ∈ label.2.toList, e.2.Storable

instance (s : Section) : Decidable s.Storable :=
  decidable_of_iff (s.total < UInt64.size ∧ (∀ e ∈ s.labelCounts.toList, e.2 < UInt64.size) ∧
      ∀ label ∈ s.attributes.toList, ∀ e ∈ label.2.toList, e.2.Storable)
    ⟨fun h => ⟨h.1, h.2.1, h.2.2⟩, fun h => ⟨h.total, h.labelCounts, h.records⟩⟩

def Section.HasNumberKeys (s : Section) : Prop :=
  ∀ label ∈ s.attributes.toList, ∀ e ∈ label.2.toList, e.2.selectivity.HasNumberKeys

instance (s : Section) : Decidable s.HasNumberKeys :=
  inferInstanceAs (Decidable (∀ label ∈ s.attributes.toList, ∀ e ∈ label.2.toList, e.2.selectivity.HasNumberKeys))

namespace Profile

def Storable (p : Profile) : Prop := ∀ k, (p.get k).Storable

def HasNumberKeys (p : Profile) : Prop := ∀ k, (p.get k).HasNumberKeys

theorem forall_kind {P : Kind → Prop} : (∀ k, P k) ↔ P .vertex ∧ P .edge :=
  ⟨fun h => ⟨h .vertex, h .edge⟩, fun h k => by cases k; exacts [h.1, h.2]⟩

instance (p : Profile) : Decidable p.Storable := decidable_of_iff _ forall_kind.symm

instance (p : Profile) : Decidable p.HasNumberKeys := decidable_of_iff _ forall_kind.symm

end Profile

def Yields {α : Type} (read : Json → Option α) (P : α → Prop) : Prop := ∀ j a, read j = some a → P a

namespace Json

theorem yields_count : Yields count? (· < UInt64.size) := by
  intro j n h
  cases j with
  | number spelling =>
    rw [count?, Option.filter_eq_some_iff] at h
    exact of_decide_eq_true h.2
  | _ => cases h

theorem isFinite_of_readFinite? {cs : List Char} {x : Float} (h : readFinite? cs = some x) : x.isFinite :=
  (Option.filter_eq_some_iff.1 h).2

theorem yields_float : Yields float? (·.isFinite) := by
  intro j x h
  cases j with
  | number spelling => exact isFinite_of_readFinite? h
  | _ => cases h

section
variable {α : Type} {P : α → Prop} {read : Json → Option α} (hread : Yields read P)
include hread

theorem yields_array : Yields (array? read) (∀ a ∈ ·, P a) := by
  intro j as h
  cases j with
  | array items =>
    change items.mapM read = some as at h
    induction items generalizing as with
    | nil =>
      cases h
      exact fun _ ha => absurd ha List.not_mem_nil
    | cons j items ih =>
      rw [List.mapM_cons] at h
      obtain ⟨a, ha, h⟩ := Option.bind_eq_some_iff.1 h
      obtain ⟨as, has, h⟩ := Option.bind_eq_some_iff.1 h
      cases h
      exact List.forall_mem_cons.2 ⟨hread j a ha, ih as has⟩
  | _ => cases h

theorem yields_map {κ : Type} [Ord κ] [TransOrd κ] [LawfulEqOrd κ] (key : String → Option κ) :
    Yields (map? key read) fun m => ∀ e ∈ m.toList, P e.2 := by
  intro j m h
  suffices hm : ∀ (k : κ) a, m[k]? = some a → P a from
    fun e he => hm e.1 e.2 (ExtTreeMap.mem_toList_iff_getElem?_eq_some.1 he)
  cases j with
  | object fields =>
    have hempty : ∀ (k : κ) a, (∅ : ExtTreeMap κ α)[k]? = some a → P a := by
      intro k a ha
      rw [ExtTreeMap.getElem?_empty] at ha
      cases ha
    rw [map?] at h
    generalize (∅ : ExtTreeMap κ α) = start at h hempty
    induction fields generalizing start with
    | nil =>
      cases h
      exact hempty
    | cons f fields ih =>
      rw [List.foldlM_cons] at h
      obtain ⟨next, hnext, h⟩ := Option.bind_eq_some_iff.1 h
      obtain ⟨k, -, hnext⟩ := Option.bind_eq_some_iff.1 hnext
      obtain ⟨a, ha, hnext⟩ := Option.bind_eq_some_iff.1 hnext
      cases hnext
      refine ih _ h fun l b hb => ?_
      rw [ExtTreeMap.getElem?_insert] at hb
      split at hb
      · cases hb
        exact hread f.2 a ha
      · exact hempty l b hb
  | _ => cases h

theorem yields_required {slot : Option Json} {a : α} (h : required read slot = some a) : P a := by
  cases slot with
  | none => cases h
  | some j => exact hread j a h

theorem yields_orElse {default : α} (hdefault : P default) {slot : Option Json} {a : α}
    (h : orElse read default slot = some a) : P a := by
  cases slot with
  | none =>
    cases h
    exact hdefault
  | some j => exact hread j a h

end

theorem yields_counts : Yields (map? some count?) fun m : ExtTreeMap String ℕ => ∀ e ∈ m.toList, e.2 < UInt64.size :=
  yields_map yields_count some

end Json

namespace Bound

theorem yields_decode : Yields decode? Storable := by
  intro j b h
  cases j with
  | number spelling =>
    rw [decode?] at h
    split at h
    · cases h
      trivial
    · obtain ⟨x, hx, rfl⟩ := Option.map_eq_some_iff.1 h
      exact Json.isFinite_of_readFinite? hx
  | _ => cases h

theorem yields_slot {slot : Option Json} {o : Option Bound} (h : slot? slot = some o) : ∀ b ∈ o, b.Storable := by
  rw [slot?.eq_def] at h
  split at h
  · cases h
    exact fun _ hb => absurd hb (Option.not_mem_none _)
  · cases h
    exact fun _ hb => absurd hb (Option.not_mem_none _)
  · obtain ⟨b, hb, rfl⟩ := Option.map_eq_some_iff.1 h
    rintro _ ⟨⟩
    exact yields_decode _ b hb

end Bound

theorem Histogram.yields_decode : Yields decode? Storable := by
  intro j h hdecode
  obtain ⟨slots, -, hdecode⟩ := Option.bind_eq_some_iff.1 hdecode
  split at hdecode
  · simp only [Option.bind_eq_bind, Option.bind_eq_some_iff] at hdecode
    obtain ⟨edges, hedges, counts, hcounts, frequencies, hfrequencies, hdecode⟩ := hdecode
    cases hdecode
    exact {
      edges := Json.yields_orElse (Json.yields_array Json.yields_float) (by simp) hedges
      counts := Json.yields_orElse (Json.yields_array Json.yields_count) (by simp) hcounts
      frequencies := Json.yields_orElse Json.yields_counts (by simp) hfrequencies }
  · cases hdecode

theorem Selectivity.yields_decode : Yields decode? Storable := by
  intro j s hdecode
  obtain ⟨slots, -, hdecode⟩ := Option.bind_eq_some_iff.1 hdecode
  split at hdecode
  · have hranges : ∀ {slot m}, Json.orElse decodeRanges? ∅ slot = some m → ∀ e ∈ m.toList, e.2.isFinite :=
      fun h => Json.yields_orElse (Json.yields_map Json.yields_float _) (by simp) h
    simp only [Option.bind_eq_bind, Option.bind_eq_some_iff] at hdecode
    obtain ⟨eq, heq, ne, hne, gt, hgt, ge, hge, lt, hlt, le, hle, hdecode⟩ := hdecode
    cases hdecode
    exact {
      eq := Json.yields_required Json.yields_float heq
      ne := Json.yields_required Json.yields_float hne
      ranges := by
        simp only [ranges, List.forall_mem_cons]
        exact ⟨hranges hgt, hranges hge, hranges hlt, hranges hle, fun _ hm => absurd hm List.not_mem_nil⟩ }
  · cases hdecode

theorem Record.yields_decode : Yields decode? Storable := by
  intro j r hdecode
  obtain ⟨slots, -, hdecode⟩ := Option.bind_eq_some_iff.1 hdecode
  split at hdecode
  · simp only [Option.bind_eq_bind, Option.bind_eq_some_iff] at hdecode
    obtain ⟨count, hcount, nulls, hnulls, distinct, hdistinct, least, hleast, greatest, hgreatest, histogram, hhistogram,
      selectivity, hselectivity, type, -, hdecode⟩ := hdecode
    cases hdecode
    exact {
      count := Json.yields_required Json.yields_count hcount
      nullCount := Json.yields_required Json.yields_count hnulls
      distinctCount := Json.yields_required Json.yields_count hdistinct
      least := Bound.yields_slot hleast
      greatest := Bound.yields_slot hgreatest
      histogram := Json.yields_orElse Histogram.yields_decode ⟨by simp [Histogram.empty], by simp [Histogram.empty],
        by simp [Histogram.empty]⟩ hhistogram
      selectivity := Json.yields_required Selectivity.yields_decode hselectivity }
  · cases hdecode

namespace Profile

theorem yields_decode : Yields decode? Storable := by
  intro j p hdecode
  obtain ⟨slots, -, hdecode⟩ := Option.bind_eq_some_iff.1 hdecode
  split at hdecode
  · have hrecords : ∀ {slot m}, Json.orElse decodeAttributes? ∅ slot = some m →
        ∀ label ∈ m.toList, ∀ e ∈ label.2.toList, e.2.Storable :=
      fun h => Json.yields_orElse (Json.yields_map (Json.yields_map Record.yields_decode some) some) (by simp) h
    have hlabels : ∀ {slot m}, Json.orElse decodeCounts? ∅ slot = some m → ∀ e ∈ m.toList, e.2 < UInt64.size :=
      fun h => Json.yields_orElse Json.yields_counts (by simp) h
    simp only [Option.bind_eq_bind, Option.bind_eq_some_iff] at hdecode
    obtain ⟨vertices, hvertices, vertexLabels, hvertexLabels, vertexAttributes, hvertexAttributes,
      edges, hedges, edgeLabels, hedgeLabels, edgeAttributes, hedgeAttributes, hdecode⟩ := hdecode
    cases hdecode
    intro k
    cases k with
    | vertex =>
      exact ⟨Json.yields_required Json.yields_count hvertices, hlabels hvertexLabels, hrecords hvertexAttributes⟩
    | edge => exact ⟨Json.yields_required Json.yields_count hedges, hlabels hedgeLabels, hrecords hedgeAttributes⟩
  · cases hdecode

theorem read_eq_ok_iff {bytes : ByteArray} {p : Profile} :
    read bytes = .ok p ↔ ∃ j, Json.parse? bytes = some j ∧ decode? j = some p := by
  rw [read]
  cases Json.parse? bytes with
  | none => simp
  | some j => cases hj : decode? j <;> simp [hj]

theorem read_eq_shape_iff {bytes : ByteArray} :
    read bytes = .error .shape ↔ ∃ j, Json.parse? bytes = some j ∧ decode? j = none := by
  rw [read]
  cases Json.parse? bytes with
  | none => simp
  | some j => cases hj : decode? j <;> simp [hj]

theorem storable_of_read {bytes : ByteArray} {p : Profile} (h : read bytes = .ok p) : p.Storable := by
  obtain ⟨j, -, hdecode⟩ := read_eq_ok_iff.1 h
  exact yields_decode j p hdecode

end Profile
end GraphProfile
