import GraphProfile.Statistics.Classified
import Mathlib.Data.List.ReduceOption

set_option autoImplicit false

/-!
# The type of a column and its values

The type of a column is decided in one pass over its values and the values are taken out in another, which passes over
those of any other type in silence. None is passed over but the floats outside the number line: a column has a type only
if all its values have an image in it. So the values that are kept and those that count as missing are all there are.
-/
namespace GraphProfile

namespace Value

def type : Value → ValueType
  | .int _ => .int
  | .float _ => .float
  | .text _ => .string

/-- What a value is in a column of the type. -/
def inType : ValueType → Value → Option Value
  | .int, v => v.int?.map .int
  | .float, v => v.number?.map .float
  | .string, v => some (.text v.display)

theorem inType_type (v : Value) : v.inType v.type = some v := by
  cases v <;> rfl

theorem type_of_inType {type : ValueType} {v w : Value} (h : v.inType type = some w) : w.type = type := by
  cases type with
  | int =>
    obtain ⟨n, -, rfl⟩ := Option.map_eq_some_iff.1 h
    rfl
  | float =>
    obtain ⟨x, -, rfl⟩ := Option.map_eq_some_iff.1 h
    rfl
  | string =>
    cases h
    rfl

end Value

namespace Classified

/-- What becomes of a type with the first value of some sort, and then stays. -/
theorem foldl_widen_iff (P : Option ValueType → Prop) (Q : Value → Prop)
    (hstep : ∀ seen v, P (widen seen v) ↔ P seen ∨ Q v) (seen : Option ValueType) (vs : List Value) :
    P (vs.foldl widen seen) ↔ P seen ∨ ∃ v ∈ vs, Q v := by
  induction vs generalizing seen with
  | nil => simp
  | cons v vs ih => rw [List.foldl_cons, ih, hstep, or_assoc, List.exists_mem_cons_iff]

section
variable {cells : List (Option Value)}

theorem widest_eq_foldl : widest cells = cells.reduceOption.foldl widen none := by
  rw [widest, List.reduceOption, List.foldl_filterMap]
  congr
  funext seen cell
  cases cell <;> rfl

theorem widest_eq_none_iff : widest cells = none ↔ cells.reduceOption = [] := by
  have hstep : ∀ seen v, widen seen v ≠ none ↔ seen ≠ none ∨ True := by
    rintro (- | - | - | -) (- | - | -) <;> simp [widen]
  have hreached := foldl_widen_iff (· ≠ none) (fun _ => True) hstep none cells.reduceOption
  rw [← widest_eq_foldl] at hreached
  rw [← not_iff_not, ← ne_eq, hreached, List.eq_nil_iff_forall_not_mem]
  simp

theorem widest_eq_string_iff : widest cells = some .string ↔ ∃ s, .text s ∈ cells.reduceOption := by
  have hstep : ∀ seen v, widen seen v = some .string ↔ seen = some .string ∨ ∃ s, v = .text s := by
    rintro (- | - | - | -) (- | - | -) <;> simp [widen]
  have hreached := foldl_widen_iff (· = some .string) (fun v => ∃ s, v = .text s) hstep none cells.reduceOption
  rw [← widest_eq_foldl] at hreached
  rw [hreached]
  simp

/-- Only a float or a text takes a column beyond the integers. -/
theorem widest_wide_iff :
    (widest cells ≠ none ∧ widest cells ≠ some .int) ↔ ∃ v ∈ cells.reduceOption, ∀ n, v ≠ .int n := by
  have hstep : ∀ seen v, (widen seen v ≠ none ∧ widen seen v ≠ some .int) ↔
      (seen ≠ none ∧ seen ≠ some .int) ∨ ∀ n, v ≠ .int n := by
    rintro (- | - | - | -) (- | - | -) <;> simp [widen]
  have hreached := foldl_widen_iff (fun seen => seen ≠ none ∧ seen ≠ some .int) (fun v => ∀ n, v ≠ .int n) hstep none
    cells.reduceOption
  rw [← widest_eq_foldl] at hreached
  rw [hreached]
  simp

variable {declared : Option ValueType}

theorem columnType_eq_string_iff : columnType declared cells = .string ↔
    declared = some .string ∨ (∃ s, .text s ∈ cells.reduceOption) ∨
      cells.reduceOption = [] ∧ declared.any ValueType.isNumeric = false := by
  rw [← widest_eq_string_iff, ← widest_eq_none_iff]
  unfold columnType
  generalize widest cells = widest
  rcases declared with - | - | - | - <;> rcases widest with - | - | - | - <;> simp [ValueType.isNumeric]

theorem columnType_eq_float_iff (hnumeric : columnType declared cells ≠ .string) :
    columnType declared cells = .float ↔ (∃ x, .float x ∈ cells.reduceOption) ∨ declared = some .float := by
  have htext : ∀ s, .text s ∉ cells.reduceOption := by
    intro s hs
    exact hnumeric (columnType_eq_string_iff.2 (.inr (.inl ⟨s, hs⟩)))
  have hfloat : (∃ x, .float x ∈ cells.reduceOption) ↔ widest cells ≠ none ∧ widest cells ≠ some .int := by
    rw [widest_wide_iff]
    constructor
    · rintro ⟨x, hx⟩
      exact ⟨_, hx, fun n hn => by cases hn⟩
    · rintro ⟨v, hv, hint⟩
      cases v with
      | int n => exact absurd rfl (hint n)
      | float x => exact ⟨x, hv⟩
      | text s => exact absurd hv (htext s)
  rw [hfloat]
  unfold columnType at hnumeric ⊢
  generalize widest cells = widest at *
  rcases declared with - | - | - | - <;> rcases widest with - | - | - | - <;> simp at hnumeric ⊢

theorem exists_int_of_mem (h : columnType declared cells = .int) {v : Value} (hv : v ∈ cells.reduceOption) :
    ∃ n, v = .int n := by
  have hnumeric : columnType declared cells ≠ .string := by
    rw [h]
    decide
  cases v with
  | int n => exact ⟨n, rfl⟩
  | float x =>
    have hfloat := (columnType_eq_float_iff hnumeric).2 (.inl ⟨x, hv⟩)
    rw [h] at hfloat
    cases hfloat
  | text s => exact absurd (columnType_eq_string_iff.2 (.inr (.inl ⟨s, hv⟩))) hnumeric

theorem map_some_filterMap {α : Type} {read : Value → Option α} {vs : List Value} (h : ∀ v ∈ vs, (read v).isSome) :
    vs.map read = (vs.filterMap read).map some := by
  rw [List.map_filterMap_some_eq_filter_map_isSome, List.filter_eq_self.2 (List.forall_mem_map.2 h)]

theorem typed_int (h : columnType declared cells = .int) :
    ∃ ns, typed cells .int = .int ns ∧ cells.reduceOption = ns.map .int := by
  refine ⟨cells.reduceOption.filterMap Value.int?, ?_, ?_⟩
  · rw [typed, List.reduceOption, List.filterMap_filterMap]
    rfl
  · have hread : ∀ v ∈ cells.reduceOption, v.int?.map Value.int = some v := by
      intro v hv
      obtain ⟨n, rfl⟩ := exists_int_of_mem h hv
      rfl
    rw [List.map_filterMap, List.filterMap_congr hread, List.filterMap_some]

theorem isSome_number?_of_mem (h : columnType declared cells = .float) {v : Value} (hv : v ∈ cells.reduceOption) :
    v.number?.isSome := by
  cases v with
  | int n => rfl
  | float x => rfl
  | text s =>
    have hstring : columnType declared cells = .string := columnType_eq_string_iff.2 (.inr (.inl ⟨s, hv⟩))
    rw [h] at hstring
    cases hstring

end

section
variable (cells : List (Option Value))

theorem typed_float :
    typed cells .float = .float ((cells.reduceOption.filterMap Value.number?).filter Float.isFinite) := by
  rw [typed, List.reduceOption, List.filterMap_filterMap]
  rfl

theorem typed_string : typed cells .string = .text (cells.reduceOption.map Value.display) := by
  rw [typed, List.reduceOption, List.map_filterMap]
  rfl

theorem length_eq_reduceOption : cells.length = cells.reduceOption.length + cells.count none := by
  have hnone : (fun cell : Option Value => cell == none) = Option.isNone := by
    funext cell
    exact Option.beq_none
  rw [List.length_eq_reduceOption_length_add_filter_none, List.count_eq_length_filter, hnone]

theorem length_typed (declared : Option ValueType) :
    (typed cells (columnType declared cells)).length +
      (if columnType declared cells = .float then
        (cells.reduceOption.filterMap Value.number?).countP fun x => !x.isFinite else 0) = cells.reduceOption.length := by
  cases htype : columnType declared cells with
  | int =>
    obtain ⟨ns, hns, hall⟩ := typed_int htype
    rw [hns, hall, List.length_map]
    rfl
  | string =>
    rw [typed_string, Typed.length, List.length_map]
    rfl
  | float =>
    have hall := congrArg List.length (map_some_filterMap fun v hv => isSome_number?_of_mem htype hv)
    rw [List.length_map, List.length_map] at hall
    have hsplit := List.length_eq_countP_add_countP Float.isFinite (l := cells.reduceOption.filterMap Value.number?)
    rw [List.countP_eq_length_filter] at hsplit
    rw [typed_float, Typed.length, if_pos rfl, hall, hsplit]
    simp

end

section
variable {type : ValueType} {cells : List (Option Value)} {declared : Option ValueType}

theorem typed_inType : typed (cells.map fun cell => cell.bind (Value.inType type)) type = typed cells type := by
  have hcell : ∀ {α : Type} (read : Option Value → Option α), read none = none →
      (∀ v, read (Value.inType type v) = read (some v)) →
      (cells.map fun cell => cell.bind (Value.inType type)).filterMap read = cells.filterMap read := by
    intro α read hnone hread
    rw [List.filterMap_map]
    apply List.filterMap_congr
    rintro (- | v) -
    · rfl
    · exact hread v
  cases type with
  | int => rw [typed, typed, hcell (fun cell => cell.bind Value.int?) rfl fun v => by cases v <;> rfl]
  | float => rw [typed, typed, hcell (fun cell => cell.bind Value.number?) rfl fun v => by cases v <;> rfl]
  | string => rw [typed, typed, hcell (fun cell => cell.map Value.display) rfl fun _ => rfl]

theorem reduceOption_inType : (cells.map fun cell => cell.bind (Value.inType type)).reduceOption =
    cells.reduceOption.filterMap (Value.inType type) := by
  rw [List.reduceOption, List.filterMap_map, List.filterMap_filterMap]
  rfl

/-- Beyond the integers a column has the type in which all its values have an image, if one of them is of it. -/
theorem columnType_eq (htype : type ≠ .int) (himage : ∀ v ∈ cells.reduceOption, (v.inType type).isSome)
    (hstring : declared = some .string → type = .string) (hne : cells.reduceOption ≠ [])
    (hreached : declared = some type ∨ ∃ v ∈ cells.reduceOption, v.type = type) : columnType declared cells = type := by
  cases type with
  | int => exact absurd rfl htype
  | string =>
    rw [columnType_eq_string_iff]
    rcases hreached with hdeclared | ⟨v, hv, hvtype⟩
    · exact .inl hdeclared
    · cases v with
      | text s => exact .inr (.inl ⟨s, hv⟩)
      | int n => cases hvtype
      | float x => cases hvtype
  | float =>
    have hnumeric : columnType declared cells ≠ .string := by
      rw [Ne, columnType_eq_string_iff]
      rintro (hdeclared | ⟨s, hs⟩ | ⟨hnone, -⟩)
      · cases hstring hdeclared
      · cases himage _ hs
      · exact hne hnone
    rw [columnType_eq_float_iff hnumeric]
    rcases hreached with hdeclared | ⟨v, hv, hvtype⟩
    · exact .inr hdeclared
    · cases v with
      | float x => exact .inl ⟨x, hv⟩
      | int n => cases hvtype
      | text s => cases hvtype

/-- Values may be exchanged for their images in the type of the column. -/
theorem classify_inType (himage : ∀ v ∈ cells.reduceOption, (v.inType type).isSome)
    (hstring : declared = some .string → type = .string)
    (hreached : cells.reduceOption = [] ∨ declared = some type ∨ ∃ v ∈ cells.reduceOption, v.type = type) :
    classify declared (cells.map fun cell => cell.bind (Value.inType type)) = classify declared cells := by
  by_cases hsame : ∀ v ∈ cells.reduceOption, v.inType type = some v
  · have hmap : (cells.map fun cell => cell.bind (Value.inType type)) = cells := by
      nth_rewrite 2 [← List.map_id cells]
      apply List.map_congr_left
      rintro (- | v) hv
      · rfl
      · exact hsame v (List.reduceOption_mem_iff.2 hv)
    rw [hmap]
  · push Not at hsame
    obtain ⟨v, hv, hother⟩ := hsame
    have htype : type ≠ .int := by
      rintro rfl
      obtain ⟨w, hw⟩ := Option.isSome_iff_exists.1 (himage v hv)
      obtain ⟨n, hn, rfl⟩ := Option.map_eq_some_iff.1 hw
      cases v <;> cases hn
      exact hother rfl
    have hne := List.ne_nil_of_mem hv
    have hreached := hreached.resolve_left hne
    have hcells : columnType declared cells = type := columnType_eq htype himage hstring hne hreached
    have himages : ∀ w ∈ cells.reduceOption.filterMap (Value.inType type), w.type = type := by
      intro w hw
      obtain ⟨u, -, hu⟩ := List.mem_filterMap.1 hw
      exact Value.type_of_inType hu
    have hmapped : columnType declared (cells.map fun cell => cell.bind (Value.inType type)) = type := by
      obtain ⟨w, hw⟩ := Option.isSome_iff_exists.1 (himage v hv)
      have hmem : w ∈ cells.reduceOption.filterMap (Value.inType type) := List.mem_filterMap.2 ⟨v, hv, hw⟩
      apply columnType_eq htype _ hstring <;> rw [reduceOption_inType]
      · exact List.ne_nil_of_mem hmem
      · exact .inr ⟨w, hmem, himages w hmem⟩
      · intro u hu
        rw [← himages u hu, Value.inType_type]
        rfl
    simp only [classify]
    rw [hmapped, hcells, typed_inType, List.length_map]

end

end Classified

/-- The declaration and the values decide the type. All values have an image of that type, in the order of their rows,
    and all images are kept but those of a column of floats that are not finite. What is kept and what counts as missing
    are as many as there are rows. -/
theorem classify_of_values (declared : Option ValueType) (cells : List (Option Value)) :
    let c := classify declared cells
    let present := cells.reduceOption
    let numbers := present.filterMap Value.number?
    (c.type = .string ↔ declared = some .string ∨ (∃ s, .text s ∈ present) ∨
        present = [] ∧ declared.any ValueType.isNumeric = false) ∧
      (c.type ≠ .string → (c.type = .float ↔ (∃ x, .float x ∈ present) ∨ declared = some .float)) ∧
      (c.type = .int → ∃ ns, c.values = .int ns ∧ present = ns.map .int) ∧
      (c.type = .float → c.values = .float (numbers.filter Float.isFinite) ∧ present.map Value.number? = numbers.map some) ∧
      (c.type = .string → c.values = .text (present.map Value.display)) ∧
      c.nullCount = cells.count none + (if c.type = .float then numbers.countP fun x => !x.isFinite else 0) ∧
      c.values.length ≤ cells.length ∧ c.values.length + c.nullCount = cells.length := by
  intro c present numbers
  have hrows : cells.length = present.length + cells.count none := Classified.length_eq_reduceOption cells
  have hkept : c.values.length + (if c.type = .float then numbers.countP fun x => !x.isFinite else 0) = present.length :=
    Classified.length_typed cells declared
  have hnulls : c.nullCount = cells.length - c.values.length := rfl
  have hvalues : c.values = Classified.typed cells c.type := rfl
  refine ⟨Classified.columnType_eq_string_iff, Classified.columnType_eq_float_iff, ?_, ?_, ?_, ?_, ?_, ?_⟩
  · intro htype
    rw [hvalues, htype]
    exact Classified.typed_int htype
  · intro htype
    rw [hvalues, htype]
    exact ⟨Classified.typed_float cells, Classified.map_some_filterMap fun v hv => Classified.isSome_number?_of_mem htype hv⟩
  · intro htype
    rw [hvalues, htype]
    exact Classified.typed_string cells
  · omega
  · omega
  · omega

/-- Integers and floats under a declaration for integers, two of them not finite, and a column with a text in it. -/
theorem classify_of_values_notFinite :
    let cells : List (Option Value) := [some (.int 7), none, some (.float (0 / 0)), some (.float (-1 / 0)), some (.float 0.5)]
    let mixed : List (Option Value) := [some (.int 7), none, some (.text "a")]
    let c := classify (some .int) cells
    let d := classify none mixed
    let e := classify (some .int) [some (.int 7), none]
    c.type ≠ .string ∧ c.type = .float ∧ c.values = .float [7, 0.5] ∧ c.nullCount = 3 ∧
      c.values.length + c.nullCount = 5 ∧ d.type = .string ∧ d.values = .text ["7", "a"] ∧ d.nullCount = 1 ∧
      e.type = .int ∧ ∃ ns, e.values = .int ns ∧ [Value.int 7] = ns.map .int := by
  intro cells mixed c d e
  have hnumbers : (cells.reduceOption.filterMap Value.number?) = [7, 0 / 0, -1 / 0, 0.5] := by decide +kernel
  obtain ⟨htype, hfloat, -, hvalues, -, hnulls, -, hrows⟩ := classify_of_values (some .int) cells
  have hnumeric : c.type ≠ .string := by
    intro hstring
    have hreason := htype.1 hstring
    simp [cells, List.reduceOption] at hreason
  have hc : c.type = .float := (hfloat hnumeric).2 (.inl ⟨0.5, by simp [cells, List.reduceOption]⟩)
  obtain ⟨hkept, -⟩ := hvalues hc
  obtain ⟨hmixed, -, -, -, htexts, hmissing, -⟩ := classify_of_values none mixed
  have hd : d.type = .string := hmixed.2 (.inr (.inl ⟨"a", by simp [mixed, List.reduceOption]⟩))
  obtain ⟨-, -, hints, -⟩ := classify_of_values (some .int) [some (.int 7), none]
  have he : e.type = .int := rfl
  refine ⟨hnumeric, hc, ?_, ?_, hrows, hd, ?_, ?_, he, hints he⟩
  · rw [hkept, hnumbers]
    decide +kernel
  · rw [hnulls, if_pos hc, hnumbers]
    decide +kernel
  · rw [htexts hd]
    decide +kernel
  · rw [hmissing, if_neg (by rw [hd]; decide)]
    decide +kernel

end GraphProfile
