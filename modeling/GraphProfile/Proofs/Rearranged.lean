import GraphProfile.Proofs.FloatOrder
import GraphProfile.Proofs.Measured

set_option autoImplicit false

/-!
# Cells in another order

The record of a column gathers its cells one after the other, but every part of it would be the same in any other
order: types only widen, counts add up, sets forget the order, and bounds are there whenever they come. Floats need a
proviso, since the two zeros compare as equal: which of them is the bound of a column is left to the order, if both
are there and nothing lies beyond them.
-/
namespace GraphProfile
open Std

namespace Classified

theorem widen_comm (seen : Option ValueType) (v w : Value) : widen (widen seen v) w = widen (widen seen w) v := by
  cases seen with
  | none => cases v <;> cases w <;> rfl
  | some type => cases type <;> cases v <;> cases w <;> rfl

variable {cells cells' : List (Option Value)} (h : cells.Perm cells')
include h

theorem widest_perm : widest cells = widest cells' := by
  refine h.foldl_eq' ?_ none
  intro x _ y _ seen
  cases x with
  | none => rfl
  | some v =>
    cases y with
    | none => rfl
    | some w => exact widen_comm seen v w

theorem columnType_perm (declared : Option ValueType) : columnType declared cells = columnType declared cells' := by
  simp only [columnType, widest_perm h]

end Classified

namespace Typed

inductive Rearranged : Typed → Typed → Prop where
  | int {ns ns' : List Int64} (h : ns.Perm ns') : Rearranged (.int ns) (.int ns')
  | float {xs xs' : List Float} (h : xs.Perm xs') : Rearranged (.float xs) (.float xs')
  | text {ss ss' : List String} (h : ss.Perm ss') : Rearranged (.text ss) (.text ss')

theorem Rearranged.length_eq {values values' : Typed} (h : Rearranged values values') :
    values.length = values'.length := by
  cases h with
  | int h => exact h.length_eq
  | float h => exact h.length_eq
  | text h => exact h.length_eq

def Finite : Typed → Prop
  | .float xs => ∀ x ∈ xs, x.isFinite
  | _ => True

/-- A zero is no bound of a column of floats that has the other one too. -/
def PlainEnds : Typed → Prop
  | .float xs => 0 ∈ xs → -0 ∈ xs → (∃ x ∈ xs, x < 0) ∧ ∃ x ∈ xs, 0 < x
  | _ => True

/-- As the same floats, not as equal numbers. -/
instance (x : Float) (xs : List Float) : Decidable (x ∈ xs) :=
  decidable_of_iff (∃ y ∈ xs, x = y) (by simp)

instance : DecidablePred PlainEnds
  | .float _ => inferInstanceAs (Decidable (_ → _ → _))
  | .int _ => .isTrue trivial
  | .text _ => .isTrue trivial

end Typed

theorem Classified.typed_perm {cells cells' : List (Option Value)} (h : cells.Perm cells') (type : ValueType) :
    (typed cells type).Rearranged (typed cells' type) := by
  cases type with
  | int => exact .int (h.filterMap _)
  | float => exact .float ((h.filterMap _).filter _)
  | string => exact .text (h.filterMap _)

theorem Classified.finite_typed (cells : List (Option Value)) (type : ValueType) : (typed cells type).Finite := by
  cases type with
  | int => trivial
  | string => trivial
  | float => exact fun x hx => (List.mem_filter.1 hx).2

namespace Histogram

theorem modify_comm (counts : Array ℕ) (i j : ℕ) :
    (counts.modify i (· + 1)).modify j (· + 1) = (counts.modify j (· + 1)).modify i (· + 1) := by
  apply Array.ext
  · simp only [Array.size_modify]
  · intro k _ _
    simp only [Array.getElem_modify]
    split <;> split <;> rfl

theorem countBins_perm {values values' : List Float} (h : values.Perm values') (edges : Array Float) (n : ℕ) :
    countBins edges n values = countBins edges n values' := by
  refine h.foldl_eq' ?_ _
  intro v _ w _ counts
  cases hv : reached edges v with
  | zero => rfl
  | succ i =>
    cases hw : reached edges w with
    | zero => rfl
    | succ j => exact modify_comm counts _ _

theorem equalWidth_perm {values values' : List Float} (h : values.Perm values') (least greatest : Float)
    (distinct maxBins : ℕ) :
    equalWidth values least greatest distinct maxBins = equalWidth values' least greatest distinct maxBins := by
  rw [equalWidth, equalWidth]
  simp only [countBins_perm h]

theorem foldl_count (texts : List String) (n : ℕ) :
    texts.foldl (fun old _ => some (old.getD 0 + 1)) (positive? n) = positive? (n + texts.length) := by
  induction texts generalizing n with
  | nil => rfl
  | cons text texts ih =>
    have hnext : some ((positive? n).getD 0 + 1) = positive? (n + 1) := by
      rw [positive?_of_ne n.succ_ne_zero]
      by_cases hn : n = 0
      · rw [hn]
        rfl
      · rw [positive?_of_ne hn, Option.getD_some]
    rw [List.foldl_cons, hnext, ih, List.length_cons, Nat.add_right_comm, Nat.add_assoc]

theorem getElem?_countTexts (texts : List String) (s : String) : (countTexts texts)[s]? = positive? (texts.count s) := by
  have hfold := getElem?_foldl_alter (fun text : String => text) (fun _ n => n.getD 0 + 1) texts ∅ s
  have hempty : (∅ : ExtTreeMap String ℕ)[s]? = positive? 0 := rfl
  rw [hempty, foldl_count, Nat.zero_add, ← List.countP_eq_length_filter] at hfold
  exact hfold

theorem countTexts_perm {texts texts' : List String} (h : texts.Perm texts') : countTexts texts = countTexts texts' := by
  apply ExtTreeMap.ext_getElem?
  intro s
  rw [getElem?_countTexts, getElem?_countTexts, h.count_eq]

end Histogram

namespace Record

section
variable {α : Type} (key : α → ℤ) (before : α → α → Prop) [DecidableRel before] {P : α → Prop}
  (hbefore : ∀ x y, P x → P y → (before x y ↔ key x < key y))
include hbefore

/-- What is kept of a start and some values is one of them and has the least key. -/
theorem foldl_first (xs : List α) {start : α} (hstart : P start) (hxs : ∀ x ∈ xs, P x) :
    let kept := xs.foldl (fun m x => if before x m then x else m) start
    (kept = start ∨ kept ∈ xs) ∧ key kept ≤ key start ∧ ∀ x ∈ xs, key kept ≤ key x := by
  induction xs generalizing start with
  | nil => exact ⟨.inl rfl, le_rfl, by simp⟩
  | cons x xs ih =>
    obtain ⟨hx, hrest⟩ := List.forall_mem_cons.1 hxs
    rw [List.foldl_cons]
    by_cases hlt : before x start
    · rw [if_pos hlt]
      obtain ⟨hmem, hle, hall⟩ := ih hx hrest
      have hkey := (hbefore x start hx hstart).1 hlt
      refine ⟨.inr ?_, by omega, List.forall_mem_cons.2 ⟨hle, hall⟩⟩
      rcases hmem with heq | hmem
      · rw [heq]
        exact List.mem_cons_self
      · exact List.mem_cons_of_mem x hmem
    · rw [if_neg hlt]
      obtain ⟨hmem, hle, hall⟩ := ih hstart hrest
      have hkey := mt (hbefore x start hx hstart).2 hlt
      refine ⟨hmem.imp_right (List.mem_cons_of_mem x), hle, List.forall_mem_cons.2 ⟨by omega, hall⟩⟩

theorem foldl_first_of_lt {xs : List α} {start : α} (hstart : P start) (hxs : ∀ x ∈ xs, P x)
    (hlt : ∀ x ∈ xs, key x < key start) (hne : xs ≠ []) :
    let kept := xs.foldl (fun m x => if before x m then x else m) start
    kept ∈ xs ∧ ∀ x ∈ xs, key kept ≤ key x := by
  obtain ⟨hmem, -, hall⟩ := foldl_first key before hbefore xs hstart hxs
  refine ⟨hmem.resolve_left ?_, hall⟩
  intro heq
  obtain ⟨x, hx⟩ := List.exists_mem_of_ne_nil xs hne
  have hkept := hall x hx
  have hbeyond := hlt x hx
  rw [heq] at hkept
  omega

end

section
open Decimal
variable {xs : List Float} (hfinite : ∀ x ∈ xs, x.isFinite) (hne : xs ≠ [])
include hfinite hne

theorem leastFloat_spec : leastFloat xs ∈ xs ∧ ∀ x ∈ xs, place (leastFloat xs) ≤ place x :=
  foldl_first_of_lt place (· < ·) (P := fun x => x.isNaN = false) (fun _ _ => lt_iff_place) (by decide +kernel)
    (fun x hx => isNaN_of_isFinite (hfinite x hx)) (fun x hx => place_lt_infinity (hfinite x hx)) hne

theorem greatestFloat_spec : greatestFloat xs ∈ xs ∧ ∀ x ∈ xs, place x ≤ place (greatestFloat xs) := by
  have hspec := foldl_first_of_lt (fun x => -place x) (fun x m : Float => m < x) (P := fun x => x.isNaN = false)
    (fun x y hx hy => (lt_iff_place hy hx).trans Int.neg_lt_neg_iff.symm) (by decide +kernel)
    (fun x hx => isNaN_of_isFinite (hfinite x hx))
    (fun x hx => Int.neg_lt_neg (negInfinity_lt_place (hfinite x hx))) hne
  exact ⟨hspec.1, fun x hx => Int.neg_le_neg_iff.1 (hspec.2 x hx)⟩

end

section
open Decimal
variable {xs xs' : List Float} (hfinite : (Typed.float xs).Finite) (hends : (Typed.float xs).PlainEnds)
include hfinite hends

/-- Unless both zeros are there and nothing beyond them, an end of the values is one float. -/
theorem eq_of_ends {x y : Float} (hx : x ∈ xs) (hy : y ∈ xs) (hplace : place x = place y)
    (hend : (∀ z ∈ xs, place x ≤ place z) ∨ ∀ z ∈ xs, place z ≤ place x) : x = y := by
  by_contra hne
  obtain ⟨hzero, hzeros⟩ := zeros_of_place hplace hne
  have hboth : 0 ∈ xs ∧ -0 ∈ xs := by
    rcases hzeros with ⟨rfl, rfl⟩ | ⟨rfl, rfl⟩
    · exact ⟨hx, hy⟩
    · exact ⟨hy, hx⟩
  obtain ⟨⟨low, hlow, hnegative⟩, high, hhigh, hpositive⟩ := hends hboth.1 hboth.2
  rw [lt_iff_place (isNaN_of_isFinite (hfinite low hlow)) (isNaN_of_isFinite isFinite_zero), place_zero] at hnegative
  rw [lt_iff_place (isNaN_of_isFinite isFinite_zero) (isNaN_of_isFinite (hfinite high hhigh)), place_zero] at hpositive
  rcases hend with hleast | hgreatest
  · have hle := hleast low hlow
    omega
  · have hle := hgreatest high hhigh
    omega

variable (h : xs.Perm xs') (hne : xs ≠ []) (hne' : xs' ≠ [])
include h hne hne'

theorem leastFloat_perm : leastFloat xs = leastFloat xs' := by
  obtain ⟨hmem, hall⟩ := leastFloat_spec hfinite hne
  obtain ⟨hmem', hall'⟩ := leastFloat_spec (fun x hx => hfinite x (h.mem_iff.2 hx)) hne'
  have hplace := Int.le_antisymm (hall _ (h.mem_iff.2 hmem')) (hall' _ (h.mem_iff.1 hmem))
  exact eq_of_ends hfinite hends hmem (h.mem_iff.2 hmem') hplace (.inl hall)

/-- Where a zero is the least value the first one of them is taken. -/
example : leastFloat [0, 1, -0] = 0 ∧ leastFloat [-0, 1, 0] = -0 := by decide +kernel

theorem greatestFloat_perm : greatestFloat xs = greatestFloat xs' := by
  obtain ⟨hmem, hall⟩ := greatestFloat_spec hfinite hne
  obtain ⟨hmem', hall'⟩ := greatestFloat_spec (fun x hx => hfinite x (h.mem_iff.2 hx)) hne'
  have hplace := Int.le_antisymm (hall' _ (h.mem_iff.1 hmem)) (hall _ (h.mem_iff.2 hmem'))
  exact eq_of_ends hfinite hends hmem (h.mem_iff.2 hmem') hplace (.inr hall)

end

theorem max_eq_ite (a b : Int64) : max a b = if a ≤ b then b else a := rfl

instance : Std.LawfulOrderMax Int64 where
  max_le_iff := by
    intro a b c
    rw [max_eq_ite]
    split
    · rename_i hab
      exact ⟨fun hbc => ⟨Std.le_trans hab hbc, hbc⟩, And.right⟩
    · rename_i hab
      exact ⟨fun hac => ⟨hac, Std.le_trans ((Std.le_total (a := a) (b := b)).resolve_left hab) hac⟩, And.left⟩
  max_eq_or := by
    intro a b
    rw [max_eq_ite]
    split
    · exact .inr rfl
    · exact .inl rfl

theorem bounds_perm {ns ns' : List Int64} (h : ns.Perm ns') : ns.min? = ns'.min? ∧ ns.max? = ns'.max? := by
  refine ⟨?_, ?_⟩
  · apply Option.ext
    intro n
    rw [List.min?_eq_some_iff, List.min?_eq_some_iff, h.mem_iff]
    simp only [h.mem_iff]
  · apply Option.ext
    intro n
    rw [List.max?_eq_some_iff, List.max?_eq_some_iff, h.mem_iff]
    simp only [h.mem_iff]

theorem eq_nil_iff_of_perm {α : Type} {l l' : List α} (h : l.Perm l') : l = [] ↔ l' = [] := by
  rw [← List.length_eq_zero_iff, ← List.length_eq_zero_iff, h.length_eq]

theorem size_ofList_perm {κ : Type} [Ord κ] [TransOrd κ] [LawfulEqOrd κ] [DecidableEq κ] {l l' : List κ}
    (h : l.Perm l') : (ExtTreeSet.ofList l).size = (ExtTreeSet.ofList l').size := by
  have hset : ExtTreeSet.ofList l compare = ExtTreeSet.ofList l' compare := by
    apply ExtTreeSet.ext_mem
    intro k
    rw [ExtTreeSet.mem_ofList, ExtTreeSet.mem_ofList, h.contains_eq]
  rw [hset]

namespace Spread

structure Rearranged (s s' : Spread) : Prop where
  least_eq : s.least = s'.least
  greatest_eq : s.greatest = s'.greatest
  distinct_eq : s.distinct = s'.distinct
  values : s.values.Perm s'.values

end Spread

theorem spreadOfInts?_perm {ns ns' : List Int64} (h : ns.Perm ns') :
    Option.Rel Spread.Rearranged (spreadOfInts? ns) (spreadOfInts? ns') := by
  obtain ⟨hmin, hmax⟩ := bounds_perm h
  rw [spreadOfInts?, spreadOfInts?, hmin, hmax]
  cases ns'.min? with
  | none => exact .none
  | some least =>
    cases ns'.max? with
    | none => exact .none
    | some greatest => exact .some ⟨rfl, rfl, size_ofList_perm (h.map _), h.map _⟩

theorem spreadOfFloats?_perm {xs xs' : List Float} (h : xs.Perm xs') (hfinite : (Typed.float xs).Finite)
    (hends : (Typed.float xs).PlainEnds) :
    Option.Rel Spread.Rearranged (spreadOfFloats? xs) (spreadOfFloats? xs') := by
  have hnil := eq_nil_iff_of_perm h
  rw [spreadOfFloats?, spreadOfFloats?]
  by_cases hxs : xs = []
  · rw [if_pos hxs, if_pos (hnil.1 hxs)]
    exact .none
  · have hxs' := mt hnil.2 hxs
    have hleast := leastFloat_perm hfinite hends h hxs hxs'
    have hgreatest := greatestFloat_perm hfinite hends h hxs hxs'
    rw [if_neg hxs, if_neg hxs']
    exact .some ⟨congrArg Bound.float hleast, congrArg Bound.float hgreatest, size_ofList_perm (h.map _), h⟩

theorem withSpread_congr (maxBins rows : ℕ) (r : Record) {s s' : Option Spread} (h : Option.Rel Spread.Rearranged s s') :
    r.withSpread maxBins rows s = r.withSpread maxBins rows s' := by
  cases h with
  | none => rfl
  | some h =>
    rw [withSpread, withSpread, h.least_eq, h.greatest_eq, h.distinct_eq, Histogram.equalWidth_perm h.values]

theorem withTexts_perm (r : Record) {texts texts' : List String} (h : texts.Perm texts') :
    r.withTexts texts = r.withTexts texts' := by
  rw [withTexts, withTexts, Histogram.ofTexts, Histogram.ofTexts, Histogram.countTexts_perm h]
  simp only [eq_nil_iff_of_perm h]

theorem ofClassified_congr (maxBins rows : ℕ) {c c' : Classified} (htype : c.type = c'.type)
    (hvalues : c.values.Rearranged c'.values) (hnull : c.nullCount = c'.nullCount) (hfinite : c.values.Finite)
    (hends : c.values.PlainEnds) : ofClassified maxBins rows c = ofClassified maxBins rows c' := by
  obtain ⟨type, values, nullCount⟩ := c
  obtain ⟨type', values', nullCount'⟩ := c'
  simp only at htype hvalues hnull hfinite hends
  subst htype hnull
  have hlength := hvalues.length_eq
  cases hvalues with
  | int h =>
    simp only [ofClassified, hlength]
    exact withSpread_congr maxBins rows _ (spreadOfInts?_perm h)
  | float h =>
    simp only [ofClassified, hlength]
    exact withSpread_congr maxBins rows _ (spreadOfFloats?_perm h hfinite hends)
  | text h =>
    simp only [ofClassified, hlength]
    exact withTexts_perm _ h

end Record

namespace Partition

/-- The values of a column that its record is made of. -/
def valuesOf (c : Column) : Typed := (classify ((c.declared.or (Header.parse c.name).declared).or c.declared) c.values).values

theorem recordOf_perm (maxBins : ℕ) {c d : Column} (hname : c.name = d.name) (hdeclared : c.declared = d.declared)
    (h : c.values.Perm d.values) (hends : (valuesOf c).PlainEnds) : recordOf maxBins c = recordOf maxBins d := by
  rw [recordOf, recordOf, Record.ofColumn, Record.ofColumn, ← hname, ← hdeclared, Column.length, Column.length,
    h.length_eq]
  generalize hchosen : (c.declared.or (Header.parse c.name).declared).or c.declared = declared
  rw [valuesOf, hchosen] at hends
  have htype := Classified.columnType_perm h declared
  have hvalues : (classify declared c.values).values.Rearranged (classify declared d.values).values := by
    rw [classify, classify, htype]
    exact Classified.typed_perm h _
  refine Record.ofClassified_congr maxBins _ htype hvalues ?_ (Classified.finite_typed _ _) hends
  have hlength := hvalues.length_eq
  rw [classify, classify] at hlength ⊢
  simp only at hlength ⊢
  rw [h.length_eq, hlength]

end Partition
end GraphProfile
