import GraphProfile.Proofs.SourceOrder
import GraphProfile.Proofs.Workers

set_option autoImplicit false

namespace GraphProfile

namespace Source

def failure? (s : Source) : Option Failure :=
  match s.table with
  | .error e => some ⟨s.name, s.kind, e.message⟩
  | .ok _ => none

/-- A source that could not be loaded lacks nothing. -/
def lacksLabelColumn (settings : Settings) (s : Source) : Bool :=
  match s.table with
  | .error _ => false
  | .ok t => (t.column? (settings.labelColumns.get s.kind)).isNone

end Source

namespace Outcome

variable (settings : Settings) (ordinal : Nat) (s : Source)

theorem failure?_ofSource : (ofSource settings ordinal s).failure? = s.failure? := by
  rw [ofSource, Source.failure?]
  cases s.table with
  | error e => rfl
  | ok t =>
    simp only
    cases Contribution.ofTable? settings s.name s.kind ordinal t <;> rfl

theorem isSkipped_ofSource : (ofSource settings ordinal s).isSkipped = s.lacksLabelColumn settings := by
  rw [ofSource, Source.lacksLabelColumn]
  cases s.table with
  | error e => rfl
  | ok t =>
    simp only [Contribution.ofTable?, Table.partition?, Option.map_map]
    cases t.column? (settings.labelColumns.get s.kind) <;> rfl

theorem length_eq (found : List Outcome) :
    (found.filterMap contribution?).length + found.countP isSkipped + (found.filterMap failure?).length =
      found.length := by
  induction found with
  | nil => rfl
  | cons o found ih =>
    rw [List.filterMap_cons, List.filterMap_cons, List.countP_cons, List.length_cons, ← ih]
    cases o with
    | contributed c =>
      simp only [contribution?, failure?, isSkipped, List.length_cons, Bool.false_eq_true, if_false]
      omega
    | skipped =>
      simp only [contribution?, failure?, isSkipped, if_true]
      omega
    | failed f =>
      simp only [contribution?, failure?, isSkipped, List.length_cons, Bool.false_eq_true, if_false]
      omega

end Outcome

namespace Report

theorem map_outcomes {settings : Settings} {β : Type} {g : Outcome → β} {f : Source → β}
    (h : ∀ ordinal s, g (.ofSource settings ordinal s) = f s) (sources : List Source) :
    (outcomes settings sources).map g = sources.map f := by
  apply List.ext_getElem?
  intro i
  rw [List.getElem?_map, outcomes, List.getElem?_mapIdx, List.getElem?_map, Option.map_map]
  exact Option.map_congr fun s _ => h i s

section
variable (settings : Settings) (sources : List Source)

theorem failures_ofSources : (ofSources settings sources).failures = sources.filterMap Source.failure? := by
  have h := congrArg (List.filterMap id) (map_outcomes (Outcome.failure?_ofSource settings) sources)
  rwa [List.filterMap_map, List.filterMap_map] at h

theorem skipped_ofSources :
    (ofSources settings sources).skipped = sources.countP fun s => s.lacksLabelColumn settings := by
  have h := congrArg (List.countP id) (map_outcomes (Outcome.isSkipped_ofSource settings) sources)
  rwa [List.countP_map, List.countP_map] at h

theorem accounted_ofSources :
    (ofSources settings sources).processed + (ofSources settings sources).skipped +
      (ofSources settings sources).failures.length = sources.length := by
  have h := Outcome.length_eq (outcomes settings sources)
  rw [outcomes, List.length_mapIdx] at h
  exact h

end

section
variable (settings : Settings) (sources : List Source) (schedule : Schedule sources.length)

theorem profile_onWorkers : (onWorkers settings sources schedule).profile = (ofSources settings sources).profile := by
  rw [onWorkers_eq]

/-- The record of an attribute is that of the last source with the attribute in its own rows of the label. -/
theorem onWorkers_replace (k : Kind) (label name : String) :
    let found := (onWorkers (settings.withPolicy .replace) sources schedule).profile.get k
    let labels := (Source.ofKind k sources).flatMap (Source.rowLabels settings)
    found.labelCounts[label]? = (if labels.count label = 0 then none else some (labels.count label)) ∧
      found.total = labels.length ∧
      found.record? label name =
        ((Source.ofKind k sources).filterMap fun s => s.record? settings label name).getLast? := by
  intro found labels
  have hprofile : found = (ofSources (settings.withPolicy .replace) sources).profile.get k :=
    congrArg (Profile.get · k) (profile_onWorkers _ sources schedule)
  rw [hprofile]
  refine ⟨?_, ?_, ?_⟩
  · exact labelCounts_ofSources (settings.withPolicy .replace) sources k label
  · exact total_ofSources (settings.withPolicy .replace) sources k
  · exact record?_ofSources_replace settings sources k label name

/-- The attributes of a label are those of all its rows as one table. -/
theorem onWorkers_combine (other : Schedule sources.length) (k : Kind) (label : String) :
    let found := (onWorkers (settings.withPolicy .combine) sources schedule).profile.get k
    let replaced := (onWorkers (settings.withPolicy .replace) sources other).profile.get k
    let measured := (stacked settings sources k label).attributes settings.maxBins
    found.attributes[label]?.getD ∅ = measured ∧ (found.attributes[label]? = none ↔ measured = ∅) ∧
      found.labelCounts = replaced.labelCounts ∧ found.total = replaced.total := by
  intro found replaced measured
  have hfound : found = (ofSources (settings.withPolicy .combine) sources).profile.get k :=
    congrArg (Profile.get · k) (profile_onWorkers _ sources schedule)
  have hreplaced : replaced = (ofSources (settings.withPolicy .replace) sources).profile.get k :=
    congrArg (Profile.get · k) (profile_onWorkers _ sources other)
  refine ⟨?_, ?_, ?_, ?_⟩
  · rw [hfound]
    exact getD_attributes_ofSources_combine settings sources k label
  · rw [hfound]
    exact attributes_ofSources_combine_eq_none_iff settings sources k label
  · apply Std.ExtTreeMap.ext_getElem?
    intro l
    rw [hfound, hreplaced, labelCounts_ofSources, labelCounts_ofSources]
    rfl
  · rw [hfound, hreplaced, total_ofSources, total_ofSources]
    rfl

/-- Sources that fail or are skipped are named and counted, and otherwise as if they had not been there. -/
theorem onWorkers_accounts (other : Schedule (sources.filter fun s => s.contributes settings).length) :
    let report := onWorkers settings sources schedule
    report.processed + report.skipped + report.failures.length = sources.length ∧
      report.skipped = sources.countP (fun s => s.lacksLabelColumn settings) ∧
      report.failures = sources.filterMap Source.failure? ∧
      report.handled.Perm (sources.map Source.name) ∧
      report.profile = (onWorkers settings (sources.filter fun s => s.contributes settings) other).profile := by
  intro report
  have hreport : report = { ofSources settings sources with handled := report.handled } :=
    onWorkers_eq settings sources schedule
  refine ⟨?_, ?_, ?_, ?_, ?_⟩
  · rw [hreport]
    exact accounted_ofSources settings sources
  · rw [hreport]
    exact skipped_ofSources settings sources
  · rw [hreport]
    exact failures_ofSources settings sources
  · exact handled_onWorkers settings sources schedule
  · rw [profile_onWorkers settings _ other, profile_ofSources_contributing]
    exact profile_onWorkers settings sources schedule

end

end Report
end GraphProfile
