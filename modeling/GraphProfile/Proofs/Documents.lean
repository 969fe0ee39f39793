import GraphProfile.Proofs.Characters
import GraphProfile.Proofs.Decoding

set_option autoImplicit false

namespace GraphProfile
open Std

theorem kept_counts {m : ExtTreeMap String ℕ} (h : ∀ e ∈ m.toList, e.2 < UInt64.size) :
    Kept (encodeMap id Json.nat) (Json.map? some Json.count?) m :=
  Json.kept_map (fun _ _ => rfl) fun e he => Json.kept_nat (h e he)

theorem Histogram.kept {h : Histogram} (hstorable : h.Storable) : Kept encode decode? h := by
  have hedges := Json.kept_array fun x hx => Json.kept_float (hstorable.edges x hx)
  have hcounts := Json.kept_array fun n hn => Json.kept_nat (hstorable.counts n hn)
  have hfrequencies := kept_counts hstorable.frequencies
  constructor
  · refine .ofFields fun f hf => ?_
    simp only [List.mem_cons, List.not_mem_nil, or_false] at hf
    rcases hf with rfl | rfl | rfl
    · exact hedges.printable
    · exact hcounts.printable
    · exact hfrequencies.printable
  · have hslots : h.encode.slots? ["bins", "counts", "value_counts"] = some [some _, some _, some _] :=
      Json.slots?_ofFields (by decide) rfl
    rw [decode?, hslots]
    simp only [Option.bind_eq_bind, Option.bind_some, Json.orElse, hedges.decoded, hcounts.decoded,
      hfrequencies.decoded]
    rfl

namespace Selectivity

variable {s : Selectivity}

theorem kept_ranges (h : s.Storable) (hkeys : s.HasNumberKeys) {m : RangeMap} (hm : m ∈ s.ranges) :
    Kept encodeRanges decodeRanges? m := by
  refine Json.kept_map (fun e he => ?_) fun e he => Json.kept_float (h.ranges m hm e he)
  rw [Threshold.parse_text (hkeys m hm e he)]
  rfl

theorem kept (h : s.Storable) (hkeys : s.HasNumberKeys) : Kept encode decode? s := by
  have heq := Json.kept_float h.eq
  have hne := Json.kept_float h.ne
  have hgt : Kept encodeRanges decodeRanges? s.gt := kept_ranges h hkeys (by simp [ranges])
  have hge : Kept encodeRanges decodeRanges? s.ge := kept_ranges h hkeys (by simp [ranges])
  have hlt : Kept encodeRanges decodeRanges? s.lt := kept_ranges h hkeys (by simp [ranges])
  have hle : Kept encodeRanges decodeRanges? s.le := kept_ranges h hkeys (by simp [ranges])
  constructor
  · refine .ofFields fun f hf => ?_
    simp only [List.mem_cons, List.not_mem_nil, or_false] at hf
    rcases hf with rfl | rfl | rfl | rfl | rfl | rfl
    · exact heq.printable
    · exact hne.printable
    · exact hgt.printable
    · exact hge.printable
    · exact hlt.printable
    · exact hle.printable
  · have hslots : s.encode.slots? ["eq", "ne", "gt", "ge", "lt", "le"] =
        some [some _, some _, some _, some _, some _, some _] := Json.slots?_ofFields (by decide) rfl
    rw [decode?, hslots]
    simp only [Option.bind_eq_bind, Option.bind_some, Json.required, Json.orElse, heq.decoded, hne.decoded,
      hgt.decoded, hge.decoded, hlt.decoded, hle.decoded]
    rfl

end Selectivity

namespace Record

theorem kept {r : Record} (h : r.Storable) (hkeys : r.selectivity.HasNumberKeys) : Kept encode decode? r := by
  have hcount := Json.kept_nat h.count
  have hnulls := Json.kept_nat h.nullCount
  have hdistinct := Json.kept_nat h.distinctCount
  have hleast := Bound.kept_slot h.least
  have hgreatest := Bound.kept_slot h.greatest
  have hhistogram := Histogram.kept h.histogram
  have hselectivity := Selectivity.kept h.selectivity hkeys
  have htype : ValueType.decode? (.text r.type.name) = some r.type := by
    cases r.type <;> rfl
  constructor
  · refine .ofFields fun f hf => ?_
    simp only [List.mem_cons, List.not_mem_nil, or_false] at hf
    rcases hf with rfl | rfl | rfl | rfl | rfl | rfl | rfl | rfl
    · exact hcount.printable
    · exact hnulls.printable
    · exact hdistinct.printable
    · exact hleast.printable
    · exact hgreatest.printable
    · exact hhistogram.printable
    · exact hselectivity.printable
    · exact .text r.type.name
  · have hslots : r.encode.slots? fieldNames =
        some [some _, some _, some _, some _, some _, some _, some _, some _] :=
      Json.slots?_ofFields (by decide) rfl
    rw [decode?, hslots]
    simp only [Option.bind_eq_bind, Option.bind_some, Json.required, Json.orElse, hcount.decoded, hnulls.decoded,
      hdistinct.decoded, hleast.decoded, hgreatest.decoded, hhistogram.decoded, hselectivity.decoded, htype]
    rfl

end Record

theorem Section.kept_attributes {s : Section} (h : s.Storable) (hkeys : s.HasNumberKeys) :
    Kept (encodeMap id Attributes.encode) decodeAttributes? s.attributes :=
  Json.kept_map (fun _ _ => rfl) fun label hlabel =>
    Json.kept_map (fun _ _ => rfl) fun e he => Record.kept (h.records label hlabel e he) (hkeys label hlabel e he)

namespace Profile

theorem kept {p : Profile} (h : p.Storable) (hkeys : p.HasNumberKeys) : Kept encode decode? p := by
  have htotal k := Json.kept_nat (h k).total
  have hlabels k := kept_counts (h k).labelCounts
  have hattributes k := Section.kept_attributes (h k) (hkeys k)
  constructor
  · refine .ofFields fun f hf => ?_
    simp only [List.mem_cons, List.not_mem_nil, or_false] at hf
    rcases hf with rfl | rfl | rfl | rfl | rfl | rfl
    · exact (htotal .vertex).printable
    · exact (htotal .edge).printable
    · exact (hlabels .vertex).printable
    · exact (hlabels .edge).printable
    · exact (hattributes .vertex).printable
    · exact (hattributes .edge).printable
  · have hslots : p.encode.slots? fieldNames = some [some _, some _, some _, some _, some _, some _] :=
      Json.slots?_ofFields (by decide) rfl
    rw [decode?, hslots]
    simp only [Option.bind_eq_bind, Option.bind_some, Json.required, Json.orElse, decodeCounts?,
      (htotal _).decoded, (hlabels _).decoded, (hattributes _).decoded]
    rfl

theorem read_document {p : Profile} (h : p.Storable) (hkeys : p.HasNumberKeys) : read p.document.toUTF8 = .ok p := by
  have hkept := kept h hkeys
  have hbreak : Json.AllBlank ['\n'] := by
    intro c hc
    rw [List.mem_singleton.1 hc]
    rfl
  have hparse : Json.parse? p.document.toUTF8 = some p.encode := by
    rw [Json.parse?, Glyph.ofBytes_toUTF8, document, Json.pretty, String.toList_append, String.toList_ofList]
    exact Json.ofGlyphs?_chars Json.blank_prettyForm hkept.printable hbreak
  exact read_eq_ok_iff.2 ⟨p.encode, hparse, hkept.decoded⟩

/-- Storable profiles without thresholds that are no numbers are read as they were written. Whatever is read is such
    a profile but for the thresholds; so it is read again from its own document, which is then written once more. -/
theorem document_roundTrip :
    (∀ p : Profile, p.Storable → p.HasNumberKeys → read p.document.toUTF8 = .ok p) ∧
      ∀ bytes q, read bytes = .ok q → q.Storable ∧ (q.HasNumberKeys →
        read q.document.toUTF8 = .ok q ∧ (read q.document.toUTF8).map document = .ok q.document) := by
  refine ⟨fun p h hkeys => read_document h hkeys, fun bytes q hread => ?_⟩
  have hq := storable_of_read hread
  refine ⟨hq, fun hkeys => ?_⟩
  have hagain := read_document hq hkeys
  exact ⟨hagain, by rw [hagain]; rfl⟩

theorem document_roundTrip_mixed :
    let histogram : Histogram := ⟨[-5, 2], [3], .ofList [("a\\b", 18446744073709551615)]⟩
    let selectivity : Selectivity := ⟨0.5, 0.5, ∅, ∅, .ofList [(Threshold.mk 0.1, 0.25), (.mk Decimal.infinity, 1)], ∅⟩
    let record : Record := ⟨3, 1, 2, some (.int (-5)), some (.float 2), histogram, selectivity, .float⟩
    let p := (empty.addRows .vertex "say \"x\"\n" 4).setRecord .vertex "say \"x\"\n" "ζ" record
    p.Storable ∧ p.HasNumberKeys ∧ read p.document.toUTF8 = .ok p ∧
      (read p.document.toUTF8).map document = .ok p.document := by
  intro histogram selectivity record p
  have hstorable : p.Storable := by decide +kernel
  have hkeys : p.HasNumberKeys := by decide +kernel
  have hread := document_roundTrip.1 p hstorable hkeys
  have hagain := (document_roundTrip.2 p.document.toUTF8 p hread).2 hkeys
  exact ⟨hstorable, hkeys, hread, hagain.2⟩

end Profile
end GraphProfile
