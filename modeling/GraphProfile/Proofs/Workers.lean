import GraphProfile.Proofs.MergeOrder
import GraphProfile.Proofs.Sources
import GraphProfile.Run.Workers

set_option autoImplicit false

/-!
# What turns decide

The invariant of a run on workers is `Progress.Sound`: every outcome is that of its source at its position, the tally
holds what the settled tasks contribute in some order, and the names told are those of the tasks that are through. A
turn keeps it. Turns enough for every task bring every task through, so of the whole schedule only the order of the
merges and that of the names is left, and the profile shows neither.
-/
namespace GraphProfile

section
variable {α β : Type} {l : List α} {i : Nat} {a : α}

theorem map_set_of_eq (h : l[i]? = some a) {f : α → β} {b : α} (hf : f b = f a) : (l.set i b).map f = l.map f := by
  apply List.ext_getElem?
  intro j
  rw [List.getElem?_map, List.getElem?_map, List.getElem?_set]
  by_cases hij : i = j
  · subst hij
    obtain ⟨hi, -⟩ := List.getElem?_eq_some_iff.1 h
    rw [if_pos rfl, if_pos hi, h, Option.map_some, Option.map_some, hf]
  · rw [if_neg hij]

theorem filterMap_set_of_eq (h : l[i]? = some a) {f : α → Option β} {b : α} (hf : f b = f a) :
    (l.set i b).filterMap f = l.filterMap f := by
  have hmap := congrArg (List.filterMap id) (map_set_of_eq h hf)
  rwa [List.filterMap_map, List.filterMap_map] at hmap

theorem perm_filterMap_set (h : l[i]? = some a) {f : α → Option β} (ha : f a = none) (b : α) :
    ((l.set i b).filterMap f).Perm (l.filterMap f ++ (f b).toList) := by
  obtain ⟨hi, rfl⟩ := List.getElem?_eq_some_iff.1 h
  have hset := (List.set_perm_cons_eraseIdx hi b).filterMap f
  have hget := (List.getElem_cons_eraseIdx_perm hi).filterMap f
  rw [List.filterMap_cons_none ha] at hget
  cases hb : f b with
  | none =>
    rw [List.filterMap_cons_none hb] at hset
    rw [Option.toList_none, List.append_nil]
    exact hset.trans hget
  | some y =>
    rw [List.filterMap_cons_some hb] at hset
    exact hset.trans ((hget.cons y).trans (List.perm_append_singleton y _).symm)

end

namespace Stage

theorem steps_le_two (s : Stage) : s.steps ≤ 2 := by
  cases s <;> simp [steps]

theorem isTold_of_steps_eq_two {s : Stage} (h : s.steps = 2) : s.isTold = true := by
  cases s with
  | waiting => cases h
  | settled o => cases h
  | told o => rfl

theorem waiting_of_steps_eq_zero {s : Stage} (h : s.steps = 0) : s = .waiting := by
  cases s with
  | waiting => rfl
  | settled o => cases h
  | told o => cases h

theorem outcome?_of_isTold {s : Stage} (h : s.isTold = true) : ∃ o, s.outcome? = some o := by
  cases s with
  | waiting => cases h
  | settled o => cases h
  | told o => exact ⟨o, rfl⟩

end Stage

namespace Task

def contribution? (t : Task) : Option Contribution := t.stage.outcome?.bind Outcome.contribution?

/-- The name of the source once it has been told. -/
def name? (t : Task) : Option String := if t.stage.isTold then some t.source.name else none

end Task

namespace Progress

structure Sound (settings : Settings) (sources : List Source) (p : Progress) : Prop where
  sources_eq : p.tasks.map Task.source = sources
  outcome_eq : ∀ (i : Nat) (t : Task) (o : Outcome), p.tasks[i]? = some t → t.stage.outcome? = some o →
    o = .ofSource settings i t.source
  merged : ∃ cs : List Contribution, cs.Perm (p.tasks.filterMap Task.contribution?) ∧ p.tally = .ofContributions cs
  told : p.handled.Perm (p.tasks.filterMap Task.name?)

section
variable {settings : Settings} {sources : List Source} {p : Progress} {i : Nat} {t : Task}

/-- A task that moves on keeps its source, and an outcome is put in its own place. -/
theorem outcome_eq_set (h : Sound settings sources p) {s : Stage} {o : Outcome} (hs : s.outcome? = some o)
    (ho : o = .ofSource settings i t.source) (j : Nat) (u : Task) (q : Outcome)
    (hu : (p.tasks.set i { t with stage := s })[j]? = some u) (hq : u.stage.outcome? = some q) :
    q = .ofSource settings j u.source := by
  rw [List.getElem?_set] at hu
  by_cases hij : i = j
  · subst hij
    rw [if_pos rfl] at hu
    split at hu
    · cases hu
      exact (Option.some.inj (hq.symm.trans hs)).trans ho
    · cases hu
  · rw [if_neg hij] at hu
    exact h.outcome_eq j u q hu hq

theorem sound_settle (h : Sound settings sources p) (ht : p.tasks[i]? = some t) (hs : t.stage = .waiting) :
    Sound settings sources (p.settle i t (.ofSource settings i t.source)) := by
  have hnone : t.contribution? = none := by simp [Task.contribution?, hs, Stage.outcome?]
  have hname : t.name? = none := by simp [Task.name?, hs, Stage.isTold]
  refine ⟨?_, outcome_eq_set h rfl rfl, ?_, ?_⟩
  · have hset := map_set_of_eq (f := Task.source)
      (b := { t with stage := .settled (.ofSource settings i t.source) }) ht rfl
    exact hset.trans h.sources_eq
  · obtain ⟨cs, hperm, htally⟩ := h.merged
    have hset := perm_filterMap_set ht hnone { t with stage := .settled (.ofSource settings i t.source) }
    refine ⟨cs ++ (Outcome.ofSource settings i t.source).contribution?.toList, ?_, ?_⟩
    · exact (hperm.append_right _).trans hset.symm
    · simp only [settle, htally]
      cases (Outcome.ofSource settings i t.source).contribution? with
      | none => exact congrArg Tally.ofContributions (List.append_nil cs).symm
      | some c => exact (List.foldl_concat Tally.merge .empty c cs).symm
  · have hset := filterMap_set_of_eq (f := Task.name?)
      (b := { t with stage := .settled (.ofSource settings i t.source) }) ht hname.symm
    exact h.told.trans (.of_eq hset.symm)

theorem sound_tell (h : Sound settings sources p) (ht : p.tasks[i]? = some t) {o : Outcome}
    (hs : t.stage = .settled o) : Sound settings sources (p.tell i t o) := by
  have hout : t.stage.outcome? = some o := by rw [hs]; rfl
  have hname : t.name? = none := by simp [Task.name?, hs, Stage.isTold]
  refine ⟨?_, outcome_eq_set h rfl (h.outcome_eq i t o ht hout), ?_, ?_⟩
  · have hset := map_set_of_eq (f := Task.source) (b := { t with stage := .told o }) ht rfl
    exact hset.trans h.sources_eq
  · obtain ⟨cs, hperm, htally⟩ := h.merged
    have hset := filterMap_set_of_eq (f := Task.contribution?) (b := { t with stage := .told o }) ht
      (congrArg (fun q => Option.bind q Outcome.contribution?) hout.symm)
    exact ⟨cs, hperm.trans (.of_eq hset.symm), htally⟩
  · have hset := perm_filterMap_set ht hname { t with stage := .told o }
    exact (h.told.append_right _).trans hset.symm

theorem sound_advance (h : Sound settings sources p) (i : Nat) : Sound settings sources (p.advance settings i) := by
  rw [advance]
  cases ht : p.tasks[i]? with
  | none => exact h
  | some t =>
    rw [Option.elim_some, move]
    cases hs : t.stage with
    | waiting => exact sound_settle h ht hs
    | settled o => exact sound_tell h ht hs
    | told o => exact h

theorem steps_advance (settings : Settings) (p : Progress) (i j : Nat) :
    ((p.advance settings i).tasks[j]?).map (fun t => t.stage.steps) =
      (p.tasks[j]?).map fun t => if i = j then min 2 (t.stage.steps + 1) else t.stage.steps := by
  rw [advance]
  cases ht : p.tasks[i]? with
  | none =>
    by_cases hij : i = j
    · subst hij
      simp [ht]
    · simp [hij]
  | some t =>
    obtain ⟨hi, -⟩ := List.getElem?_eq_some_iff.1 ht
    by_cases hij : i = j
    · subst hij
      rw [Option.elim_some, ht, Option.map_some, if_pos rfl, move]
      cases hs : t.stage with
      | waiting => simp [settle, hi, Stage.steps]
      | settled o => simp [tell, hi, Stage.steps]
      | told o => rw [ht, Option.map_some, hs]; rfl
    · cases hs : t.stage <;> simp [move, hs, settle, tell, hij]

end

section
variable (settings : Settings) (sources : List Source)

theorem sound_start : Sound settings sources (start sources) := by
  refine ⟨?_, ?_, ?_, ?_⟩
  · rw [start, List.map_map]
    exact List.map_id sources
  · intro i t o ht ho
    rw [start, List.getElem?_map] at ht
    obtain ⟨s, -, rfl⟩ := Option.map_eq_some_iff.1 ht
    cases ho
  · refine ⟨[], ?_, rfl⟩
    rw [start, List.filterMap_map]
    exact .of_eq (List.filterMap_eq_nil_iff.2 fun _ _ => rfl).symm
  · rw [start, List.filterMap_map]
    exact .of_eq (List.filterMap_eq_nil_iff.2 fun _ _ => rfl).symm

theorem sound_after (turns : List Nat) : Sound settings sources (after settings sources turns) :=
  List.foldlRecOn turns _ (sound_start settings sources) fun _ h i _ => sound_advance h i

theorem steps_foldl (turns : List Nat) (p : Progress) (j : Nat) :
    ((turns.foldl (advance settings) p).tasks[j]?).map (fun t => t.stage.steps) =
      (p.tasks[j]?).map fun t => min 2 (t.stage.steps + turns.count j) := by
  induction turns generalizing p with
  | nil =>
    apply Option.map_congr
    intro t _
    have := t.stage.steps_le_two
    simp only [List.count_nil]
    omega
  | cons i turns ih =>
    -- once two steps are taken neither this turn nor the later ones add any
    have hstep := congrArg (Option.map fun n => min 2 (n + turns.count j)) (steps_advance settings p i j)
    rw [Option.map_map, Option.map_map] at hstep
    rw [List.foldl_cons, ih]
    refine hstep.trans (Option.map_congr ?_)
    intro t _
    simp only [Function.comp_apply, List.count_cons, beq_iff_eq]
    split <;> omega

theorem isFinished_after (schedule : Schedule sources.length) :
    (after settings sources schedule.turns).isFinished = true := by
  rw [isFinished, List.all_eq_true]
  intro t ht
  obtain ⟨j, hj⟩ := List.mem_iff_getElem?.1 ht
  have hsteps := steps_foldl settings schedule.turns (start sources) j
  have hlen := congrArg List.length (sound_after settings sources schedule.turns).sources_eq
  rw [List.length_map] at hlen
  obtain ⟨hlt, -⟩ := List.getElem?_eq_some_iff.1 hj
  have hcount := schedule.enough j (by omega)
  rw [← after, hj, start, List.getElem?_map, List.getElem?_eq_getElem (by omega)] at hsteps
  simp only [Option.map_some, Option.some.injEq] at hsteps
  apply Stage.isTold_of_steps_eq_two
  rw [hsteps]
  omega

end

section
variable {settings : Settings} {sources : List Source} {p : Progress}
  (h : Sound settings sources p) (hf : p.isFinished = true)
include h hf

theorem outcomes_of_finished :
    (p.tasks.filterMap fun t => t.stage.outcome?) = Report.outcomes settings sources := by
  have hmap : (p.tasks.map fun t => t.stage.outcome?) = (Report.outcomes settings sources).map some := by
    apply List.ext_getElem?
    intro i
    rw [List.getElem?_map, List.getElem?_map, Report.outcomes, List.getElem?_mapIdx, ← h.sources_eq,
      List.getElem?_map]
    cases ht : p.tasks[i]? with
    | none => rfl
    | some t =>
      obtain ⟨o, ho⟩ := Stage.outcome?_of_isTold (List.all_eq_true.1 hf t (List.mem_of_getElem? ht))
      simp only [Option.map_some, ho, h.outcome_eq i t o ht ho]
  have hall := congrArg (List.filterMap id) hmap
  rw [List.filterMap_map, List.filterMap_map] at hall
  exact hall.trans (List.filterMap_some)

theorem handled_of_finished : p.handled.Perm (sources.map Source.name) := by
  have hname : p.tasks.filterMap Task.name? = (p.tasks.map Task.source).map Source.name := by
    rw [List.map_map, ← List.filterMap_eq_map]
    apply List.filterMap_congr
    intro t ht
    exact if_pos (List.all_eq_true.1 hf t ht)
  rw [← h.sources_eq, ← hname]
  exact h.told

theorem profile_of_finished : p.tally.profile settings.maxBins = (Report.ofSources settings sources).profile := by
  obtain ⟨cs, hperm, htally⟩ := h.merged
  -- what was merged is what the sources contribute, in the order of the turns
  have hcontributions : p.tasks.filterMap Task.contribution? = Report.contributions settings sources := by
    rw [Report.contributions, ← outcomes_of_finished h hf, List.filterMap_filterMap]
    rfl
  rw [hcontributions] at hperm
  have hdistinct : ((Report.contributions settings sources).map Contribution.ordinal).Nodup :=
    List.pairwise_map.2 ((Report.pairwise_ordinal_contributions settings sources).imp Nat.ne_of_lt)
  rw [htally]
  apply Tally.profile_eq_of_shelves
  intro k
  exact Shelf.profile_perm (hperm.filter _)
    (Contribution.nodup_ordinal_filter ((hperm.map _).nodup_iff.2 hdistinct) _) settings.maxBins

end

section
variable (settings : Settings) (sources : List Source)

theorem handled_advance_twice {p : Progress} {i : Nat} {t : Task} (ht : p.tasks[i]? = some t)
    (hs : t.stage = .waiting) :
    ((p.advance settings i).advance settings i).handled = p.handled ++ [t.source.name] := by
  obtain ⟨hi, -⟩ := List.getElem?_eq_some_iff.1 ht
  have hfirst : p.advance settings i = p.settle i t (.ofSource settings i t.source) := by
    rw [advance, ht, Option.elim_some, move, hs]
  have hsecond : (p.advance settings i).tasks[i]? = some ⟨t.source, .settled (.ofSource settings i t.source)⟩ := by
    rw [hfirst]
    exact List.getElem?_set_self hi
  rw [advance, hsecond, Option.elim_some, move, hfirst]
  rfl

theorem handled_inOrder (n : Nat) (hn : n ≤ sources.length) :
    (after settings sources ((List.range n).flatMap fun i => [i, i])).handled = (sources.take n).map Source.name := by
  induction n with
  | zero => rfl
  | succ n ih =>
    have hnew : ((List.range n).flatMap fun i => [i, i]).count n = 0 := by
      rw [List.count_eq_zero]
      simp
    -- the task at position `n` has not had a turn yet
    have hsteps := steps_foldl settings ((List.range n).flatMap fun i => [i, i]) (start sources) n
    have hsource := congrArg (fun l : List Source => l[n]?)
      (sound_after settings sources ((List.range n).flatMap fun i => [i, i])).sources_eq
    rw [← after, hnew, start, List.getElem?_map, List.getElem?_eq_getElem hn] at hsteps
    simp only [List.getElem?_map, List.getElem?_eq_getElem hn] at hsource
    obtain ⟨t, ht, hname⟩ := Option.map_eq_some_iff.1 hsource
    rw [ht, Option.map_some, Option.map_some, Option.map_some, Option.some.injEq] at hsteps
    have hwaiting : t.stage = .waiting := Stage.waiting_of_steps_eq_zero hsteps
    have htwice := handled_advance_twice settings ht hwaiting
    rw [ih (by omega), hname] at htwice
    rw [List.range_succ, List.flatMap_append, after, List.foldl_append]
    refine htwice.trans ?_
    rw [List.take_succ_eq_append_getElem hn, List.map_append]
    rfl

end

end Progress

namespace Report

variable (settings : Settings) (sources : List Source) (schedule : Schedule sources.length)

theorem handled_onWorkers : (onWorkers settings sources schedule).handled.Perm (sources.map Source.name) :=
  Progress.handled_of_finished (Progress.sound_after settings sources schedule.turns)
    (Progress.isFinished_after settings sources schedule)

/-- But for the order in which the names are told, a report is that of the sources one after the other. -/
theorem onWorkers_eq : onWorkers settings sources schedule =
    { ofSources settings sources with handled := (onWorkers settings sources schedule).handled } := by
  have hsound := Progress.sound_after settings sources schedule.turns
  have hfinished := Progress.isFinished_after settings sources schedule
  simp only [onWorkers, Progress.report, Progress.outcomes_of_finished hsound hfinished,
    Progress.profile_of_finished hsound hfinished]
  rfl

/-- Sources dealt with one after the other are one of the schedules. -/
theorem onWorkers_inOrder : onWorkers settings sources (.inOrder sources.length) = ofSources settings sources := by
  have hhandled := Progress.handled_inOrder settings sources sources.length (Nat.le_refl _)
  rw [List.take_length] at hhandled
  rw [onWorkers_eq]
  exact congrArg (Report.mk _ _ _ _) hhandled

end Report
end GraphProfile
