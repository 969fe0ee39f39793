import GraphProfile.Proofs.RecordShape

set_option autoImplicit false

namespace GraphProfile.Selectivity

/-- A histogram, and the number of rows that it is taken to be of. -/
structure Filling where
  histogram : Histogram
  rows : ℕ

def fillAll (s : Selectivity) (fillings : List Filling) : Selectivity :=
  fillings.foldl (fun s f => s.fillRanges f.histogram f.rows) s

def starts (fillings : List Filling) : List Float := fillings.flatMap fun f => f.histogram.starts

/-- The last bin that starts at the threshold: it belongs to a filling of so many rows, with so many of them counted
    before the bin and up to its end. -/
inductive LastBin (fillings : List Filling) (t : Threshold) : ℕ → ℕ → ℕ → Prop where
  | intro {earlier later : List Filling} {f : Filling} {before after : List Float}
      (hfillings : fillings = earlier ++ f :: later) (hlater : t.value ∉ starts later)
      (hbins : f.histogram.starts = before ++ t.value :: after) (hafter : t.value ∉ after) :
      LastBin fillings t f.rows (f.histogram.counts.take before.length).sum
        (f.histogram.counts.take (before.length + 1)).sum

theorem mem_starts {fillings : List Filling} {edge : Float} :
    edge ∈ starts fillings ↔ ∃ f ∈ fillings, edge ∈ f.histogram.starts := List.mem_flatMap

theorem exists_lastBin {fillings : List Filling} {t : Threshold} (h : t.value ∈ starts fillings) :
    ∃ rows below through, LastBin fillings t rows below through := by
  induction fillings with
  | nil => cases h
  | cons f fillings ih =>
    by_cases hlater : t.value ∈ starts fillings
    · obtain ⟨rows, below, through, hlast⟩ := ih hlater
      cases hlast with
      | intro hfillings hlater hbins hafter =>
        exact ⟨_, _, _, .intro (by rw [hfillings, List.cons_append]) hlater hbins hafter⟩
    · have hf : t.value ∈ f.histogram.starts := by
        rw [starts, List.flatMap_cons, List.mem_append] at h
        exact h.resolve_right hlater
      obtain ⟨before, after, hbins, hafter⟩ := exists_last_of_mem hf
      exact ⟨_, _, _, .intro (List.nil_append _).symm hlater hbins hafter⟩

theorem fillAll_append (s : Selectivity) (earlier later : List Filling) :
    s.fillAll (earlier ++ later) = (s.fillAll earlier).fillAll later := List.foldl_append

theorem fillAll_equality (s : Selectivity) (fillings : List Filling) :
    (s.fillAll fillings).eq = s.eq ∧ (s.fillAll fillings).ne = s.ne := by
  refine List.foldlRecOn fillings _ (motive := fun u : Selectivity => u.eq = s.eq ∧ u.ne = s.ne) ⟨rfl, rfl⟩ ?_
  rintro u ⟨heq, hne⟩ f -
  obtain ⟨hfeq, hfne⟩ := fillBins_equality f.rows u 0 f.histogram.bins
  exact ⟨hfeq.trans heq, hfne.trans hne⟩

theorem Holds.fillAll {s : Selectivity} {t : Threshold} {found : Option Shares} (h : s.Holds t found)
    {fillings : List Filling} (ht : t.value ∉ starts fillings) : (s.fillAll fillings).Holds t found := by
  refine List.foldlRecOn fillings _ (motive := fun u : Selectivity => u.Holds t found) h ?_
  intro u hu f hf
  exact hu.fillRanges (fun hmem => ht (mem_starts.2 ⟨f, hf, hmem⟩)) f.rows

/-- What comes before the last bin's filling does not matter, nor what comes after it. -/
theorem LastBin.holds_fillAll {fillings : List Filling} {t : Threshold} {rows below through : ℕ}
    (h : LastBin fillings t rows below through) (s : Selectivity) :
    (s.fillAll fillings).Holds t (some (.ofCounts rows below through)) := by
  cases h with
  | @intro earlier later f before after hfillings hlater hbins hafter =>
    have hfilled := holds_fillRanges (s.fillAll earlier) f.rows hbins hafter
    rw [hfillings, fillAll_append]
    exact hfilled.fillAll hlater

theorem mem_ranges_fillAll {s : Selectivity} {t : Threshold} (hs : s.Holds t none) (fillings : List Filling) :
    ∀ m ∈ (s.fillAll fillings).ranges, t ∈ m ↔ t.value ∈ starts fillings := by
  intro m hm
  by_cases ht : t.value ∈ starts fillings
  · obtain ⟨rows, below, through, hlast⟩ := exists_lastBin ht
    rw [(hlast.holds_fillAll s).mem_iff m hm]
    exact iff_of_true rfl ht
  · rw [(hs.fillAll ht).mem_iff m hm]
    exact iff_of_false Bool.false_ne_true ht

/-- From no ranges on, whatever the maps are filled from, equality keeps its shares, and all four maps have every edge
    that was seen and no other. The four shares under an edge are those of the last bin that starts there. -/
theorem fillAll_coherent {start : Selectivity} (hstart : start = unknown ∨ ∃ distinct, start = equality distinct)
    (fillings : List Filling) :
    let s := start.fillAll fillings
    s.eq = start.eq ∧ s.ne = start.ne ∧
      (∀ m ∈ s.ranges, ∀ t : Threshold, t ∈ m ↔ t.value ∈ starts fillings) ∧
      (∀ t : Threshold, t.value ∈ starts fillings → ∃ rows below through, LastBin fillings t rows below through) ∧
      ∀ t rows below through, LastBin fillings t rows below through → ∃ shares, s.Holds t (some shares) ∧
        (0 < rows → shares.lt = .ofNat below / .ofNat rows ∧ shares.le = .ofNat through / .ofNat rows ∧
          shares.gt = 1 - shares.le ∧ shares.ge = 1 - shares.lt) ∧
        (rows = 0 → shares.lt = 0 ∧ shares.le = 0 ∧ shares.gt = 0 ∧ shares.ge = 0) := by
  intro s
  obtain ⟨distinct, rfl⟩ : ∃ distinct, start = equality distinct := by
    rcases hstart with rfl | hequality
    · exact ⟨0, rfl⟩
    · exact hequality
  obtain ⟨heq, hne⟩ := fillAll_equality (equality distinct) fillings
  refine ⟨heq, hne, ?_, fun t => exists_lastBin, ?_⟩
  · intro m hm t
    exact mem_ranges_fillAll (holds_equality distinct t) fillings m hm
  · intro t rows below through hlast
    refine ⟨_, hlast.holds_fillAll _, ?_, ?_⟩
    · intro hrows
      rw [Shares.ofCounts, ratio, ratio, if_pos hrows, if_pos hrows, if_pos hrows, if_pos hrows]
      exact ⟨rfl, rfl, rfl, rfl⟩
    · rintro rfl
      exact ⟨rfl, rfl, rfl, rfl⟩

/-- Edges that come again, in one histogram and in the next one, a count without a bin, and a filling without rows. -/
theorem fillAll_coherent_repeated :
    let first : Filling := ⟨⟨[0, 5, 0, 10], [1, 2, 3], ∅⟩, 8⟩
    let last : Filling := ⟨⟨[5, 7], [4, 4], ∅⟩, 0⟩
    let s := unknown.fillAll [first, last]
    (unknown = unknown ∨ ∃ distinct, unknown = equality distinct) ∧ s.eq = 1 ∧ s.ne = 0 ∧
      (∀ m ∈ s.ranges, Threshold.mk 5 ∈ m ∧ Threshold.mk 7 ∉ m ∧ Threshold.mk 10 ∉ m) ∧
      LastBin [first, last] ⟨0⟩ 8 3 6 ∧ s.lt[Threshold.mk 0]? = some (3 / 8) ∧ s.gt[Threshold.mk 0]? = some (1 - 6 / 8) ∧
      LastBin [first, last] ⟨5⟩ 0 0 4 ∧ s.le[Threshold.mk 5]? = some 0 ∧ s.ge[Threshold.mk 5]? = some 0 := by
  intro first last s
  have hstart : unknown = unknown ∨ ∃ distinct, unknown = equality distinct := .inl rfl
  have hzero : LastBin [first, last] ⟨0⟩ 8 3 6 := by
    refine @LastBin.intro [first, last] ⟨0⟩ [] [last] first [0, 5] [] rfl ?_ rfl ?_
    · decide +kernel
    · exact List.not_mem_nil
  have hfive : LastBin [first, last] ⟨5⟩ 0 0 4 :=
    @LastBin.intro [first, last] ⟨5⟩ [first] [] last [] [] rfl List.not_mem_nil rfl List.not_mem_nil
  obtain ⟨heq, hne, hkeys, -, hshares⟩ := fillAll_coherent hstart [first, last]
  obtain ⟨atZero, hholds, hrows, -⟩ := hshares ⟨0⟩ 8 3 6 hzero
  obtain ⟨hlt, hle, hgt, -⟩ := hrows (by decide)
  obtain ⟨atFive, hholds', -, hnone⟩ := hshares ⟨5⟩ 0 0 4 hfive
  obtain ⟨-, hle', -, hge'⟩ := hnone rfl
  refine ⟨hstart, heq.trans (by decide +kernel), hne.trans (by decide +kernel), ?_, hzero, ?_, ?_, hfive, ?_, ?_⟩
  · intro m hm
    rw [hkeys m hm, hkeys m hm, hkeys m hm]
    decide +kernel
  · rw [hholds.1, Option.map_some, hlt]
    rfl
  · rw [hholds.2.2.1, Option.map_some, hgt, hle]
    rfl
  · rw [hholds'.2.1, Option.map_some, hle']
  · rw [hholds'.2.2.2, Option.map_some, hge']

end GraphProfile.Selectivity
