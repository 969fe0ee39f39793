import GraphProfile.Proofs.FloatMonotone
import GraphProfile.Proofs.Rearranged
import GraphProfile.Statistics.Estimate

set_option autoImplicit false

namespace GraphProfile

namespace Histogram
open Std

variable (texts : List String)

theorem getElem?_countTexts_eq_some (s : String) (n : ℕ) :
    (countTexts texts)[s]? = some n ↔ s ∈ texts ∧ n = texts.count s := by
  rw [getElem?_countTexts]
  by_cases hs : s ∈ texts
  · rw [positive?_of_ne (List.count_pos_iff.2 hs).ne', Option.some.injEq, and_iff_right hs, eq_comm]
  · rw [List.count_eq_zero.2 hs, positive?_zero]
    exact iff_of_false (Option.some_ne_none n).symm fun h => hs h.1

theorem keys_countTexts : ((countTexts texts).toList.map Prod.fst).Perm texts.dedup := by
  rw [List.perm_ext_iff_of_nodup (nodup_keys_toList _) texts.nodup_dedup]
  intro s
  rw [List.mem_dedup, List.mem_map]
  constructor
  · rintro ⟨⟨s, n⟩, he, rfl⟩
    exact ((getElem?_countTexts_eq_some texts s n).1 (ExtTreeMap.mem_toList_iff_getElem?_eq_some.1 he)).1
  · intro hs
    exact ⟨(s, texts.count s),
      ExtTreeMap.mem_toList_iff_getElem?_eq_some.2 ((getElem?_countTexts_eq_some texts s _).2 ⟨hs, rfl⟩), rfl⟩

theorem size_countTexts : (countTexts texts).size = texts.dedup.length := by
  rw [← (keys_countTexts texts).length_eq, List.length_map, ExtTreeMap.length_toList]

theorem sum_countTexts : ((countTexts texts).toList.map Prod.snd).sum = texts.length := by
  have hcounts : (countTexts texts).toList.map Prod.snd = ((countTexts texts).toList.map Prod.fst).map texts.count := by
    rw [List.map_map, List.map_inj_left]
    intro e he
    exact ((getElem?_countTexts_eq_some texts e.1 e.2).1 (ExtTreeMap.mem_toList_iff_getElem?_eq_some.1 he)).2
  rw [hcounts, ((keys_countTexts texts).map texts.count).sum_eq]
  exact List.sum_map_count_dedup_eq_length texts

end Histogram

namespace Record
open Histogram Decimal

theorem ofColumn_of_texts {maxBins : ℕ} {declared : Option ValueType} {c : Column}
    (hstring : (ofColumn maxBins declared c).type = .string) :
    let r := ofColumn maxBins declared c
    let texts := c.values.filterMap fun cell => cell.map Value.display
    r.count = texts.length ∧ r.histogram.frequencies = countTexts texts ∧
      r.distinctCount = (countTexts texts).size := by
  intro r texts
  have hvalues : (classify (declared.or c.declared) c.values).values = .text texts := by
    rw [ofColumn, (ofClassified_eq ..).1] at hstring
    exact congrArg (Classified.typed c.values) hstring
  refine ⟨?_, histogram_ofClassified _ _ _ hvalues, ?_⟩
  · have hcount := (ofClassified_eq maxBins c.length (classify (declared.or c.declared) c.values)).2
    rw [hvalues] at hcount
    exact hcount
  · simp only [r, ofColumn, ofClassified, hvalues, withTexts]
    split
    · rename_i hnone
      rw [hnone]
      rfl
    · rfl

theorem frequency_eq {r : Record} {texts : List String} (hfrequencies : r.histogram.frequencies = countTexts texts)
    (hcount : 0 < r.count) (s : String) : r.frequency s = Float.ofNat (texts.count s) / Float.ofNat r.count := by
  rw [frequency, hfrequencies, getElem?_countTexts]
  by_cases hs : texts.count s = 0
  · rw [hs]
    exact (float_zero_div (ofNat_pos hcount)).symm
  · rw [positive?_of_ne hs]

/-- In a column of texts every value there is, of any type, is estimated by how often its text occurs. Each text is
    counted once, and the counts are those of all rows that have a value. -/
theorem estimate_text {maxBins : ℕ} {declared : Option ValueType} {c : Column} :
    let r := ofColumn maxBins declared c
    let texts := c.values.filterMap fun cell => cell.map Value.display
    r.type = .string → texts ≠ [] →
      r.count = texts.length ∧
        (∀ v : Value,
          r.estimate .eq v = some (Float.ofNat (texts.count v.display) / Float.ofNat r.count) ∧
            r.estimate .ne v = some (1 - Float.ofNat (texts.count v.display) / Float.ofNat r.count)) ∧
        (∀ s n, r.histogram.frequencies[s]? = some n ↔ s ∈ texts ∧ n = texts.count s) ∧
        (r.histogram.frequencies.toList.map Prod.fst).Perm texts.dedup ∧
        (r.histogram.frequencies.toList.map Prod.snd).sum = r.count ∧
        r.histogram.frequencies.size = r.distinctCount ∧ r.distinctCount = texts.dedup.length := by
  intro r texts hstring hne
  obtain ⟨hcount, hfrequencies, hdistinct⟩ := ofColumn_of_texts hstring
  have hpos : 0 < r.count := by
    rw [hcount]
    exact List.length_pos_iff.2 hne
  refine ⟨hcount, ?_, ?_, ?_, ?_, ?_, ?_⟩
  · intro v
    have hfrequency := frequency_eq hfrequencies hpos v.display
    rw [estimate, if_neg hpos.ne', if_pos hstring, estimateText, estimate, if_neg hpos.ne', if_pos hstring,
      estimateText, hfrequency]
    exact ⟨rfl, rfl⟩
  · intro s n
    rw [hfrequencies]
    exact getElem?_countTexts_eq_some texts s n
  · rw [hfrequencies]
    exact keys_countTexts texts
  · rw [hfrequencies, hcount]
    exact sum_countTexts texts
  · rw [hfrequencies, hdistinct]
  · rw [hdistinct]
    exact size_countTexts texts

/-- An integer, a float and a text that are written alike are one value of a column with texts among its values. -/
theorem estimate_text_mixed :
    let cells := [some (.int 7), some (.text "x"), none, some (.float 7), some (.text "7"), some (.text "007")]
    let r := ofColumn 10 none ⟨"n", none, cells⟩
    let texts := cells.filterMap fun cell => cell.map Value.display
    r.type = .string ∧ texts ≠ [] ∧ texts = ["7", "x", "7", "7", "007"] ∧ r.count = 5 ∧
      r.estimate .eq (.int 7) = some (3 / 5) ∧ r.estimate .ne (.float 7) = some (1 - 3 / 5) ∧
      r.estimate .eq (.text "8") = some (0 / 5) ∧ r.histogram.frequencies["7"]? = some 3 ∧
      (r.histogram.frequencies.toList.map Prod.snd).sum = 5 ∧ r.distinctCount = 3 := by
  intro cells r texts
  have hstring : r.type = .string := by decide +kernel
  have htexts : texts = ["7", "x", "7", "7", "007"] := by decide +kernel
  have hne : texts ≠ [] := by
    rw [htexts]
    decide
  obtain ⟨hcount, hestimate, hcounts, -, hsum, -, hdistinct⟩ := estimate_text hstring hne
  have hfive : r.count = 5 := by
    rw [hcount]
    exact congrArg List.length htexts
  have hshare : ∀ (v : Value) (k : ℕ), texts.count v.display = k →
      r.estimate .eq v = some (Float.ofNat k / 5) ∧ r.estimate .ne v = some (1 - Float.ofNat k / 5) := by
    rintro v _ rfl
    have hboth := hestimate v
    rwa [hfive] at hboth
  have hthree : texts.count "7" = 3 := by
    rw [htexts]
    decide
  have hmem : "7" ∈ texts := by
    rw [htexts]
    decide
  refine ⟨hstring, hne, htexts, hfive, ?_, ?_, ?_, (hcounts "7" 3).2 ⟨hmem, hthree.symm⟩, hsum.trans hfive, ?_⟩
  · exact (hshare (.int 7) 3 ((by decide +kernel : (Value.int 7).display = "7") ▸ hthree)).1
  · exact (hshare (.float 7) 3 ((by decide +kernel : (Value.float 7).display = "7") ▸ hthree)).2
  · exact (hshare (.text "8") 0 (by rw [htexts]; decide)).1
  · rw [hdistinct]
    exact congrArg (fun l => l.dedup.length) htexts

end Record
end GraphProfile
