import GraphProfile.Proofs.FileTables
import GraphProfile.Proofs.Layouts
import GraphProfile.Proofs.Rearranged
import GraphProfile.Proofs.RoundedPlaces
import GraphProfile.Statistics.Estimate

set_option autoImplicit false

/-!
# Literals and cells

A cell is read as all cells of its column can be read, but the literal of a query as it can be read itself. So the
same characters may be an integer in the query and a float in the column. They are one number still, because digits
are rounded in one way whether they are read as an integer first or not; only the zero of `-0` loses its sign.
-/
namespace GraphProfile

namespace Decimal

theorem digitCount_le {n : ℕ} (h : n ≤ 2 ^ 63) : digitCount n ≤ 19 :=
  (Nat.length_toDigits_le_iff (by norm_num) (by norm_num)).2 (h.trans_lt (by decide))

theorem toFloat_natural {n : ℕ} (h : n ≤ 2 ^ 63) : (⟨n, 0⟩ : Decimal).toFloat = Float.ofNat n := by
  by_cases hn : n = 0
  · rw [hn]
    decide +kernel
  · have hcount := digitCount_le h
    rw [toFloat, if_neg, if_neg]
    · rfl
    · simp only
      omega
    · simp only
      omega

theorem isNaN_ofNat {n : ℕ} (h : n ≤ 2 ^ 63) : (Float.ofNat n).isNaN = false := by
  rw [← toFloat_natural h]
  by_cases hn : n = 0
  · rw [hn]
    decide +kernel
  · have hcount := digitCount_le h
    have hleading : (⟨n, 0⟩ : Decimal).leading = digitCount n := Int.zero_add _
    rw [toFloat_eq_nearest hn (by omega) (by omega)]
    exact isNaN_nearest _ _

theorem isNaN_ofInt {z : ℤ} (h : z.natAbs ≤ 2 ^ 63) : (Float.ofInt z).isNaN = false := by
  cases z with
  | ofNat n => exact isNaN_ofNat h
  | negSucc n => exact (isNaN_neg _).trans (isNaN_ofNat h)

theorem unsigned?_of_natural? {cs : List Char} {n : ℕ} (h : natural? cs = some n) :
    word? cs = none ∧ unsigned? cs = some ⟨n, 0⟩ := by
  rw [natural?, Option.ite_none_right_eq_some, Option.some.injEq] at h
  obtain ⟨⟨hne, hdigits⟩, rfl⟩ := h
  have hall : AllDigits cs := List.all_eq_true.1 hdigits
  refine ⟨?_, ?_⟩
  · cases cs with
    | nil => exact absurd rfl hne
    | cons c cs => exact word?_of_isDigit (hall c List.mem_cons_self) cs
  · let spelling : Spelling := ⟨cs, [], none⟩
    have hwell : spelling.WellFormed := ⟨hne, hall, by simp [spelling, AllDigits], by simp [spelling]⟩
    have hread := Spelling.unsigned?_chars hwell
    simpa [spelling, Spelling.chars, Spelling.fractionChars, Spelling.powerChars, Spelling.decimal,
      Spelling.powerValue] using hread

theorem natural?_of_integer? {cs : List Char} {z : ℤ} (h : integer? cs = some z) :
    natural? (splitSign cs).2 = some z.natAbs ∧ z = if (splitSign cs).1 then -(z.natAbs : ℤ) else z.natAbs := by
  rw [integer?] at h
  cases hn : natural? (splitSign cs).2 with
  | none =>
    rw [hn] at h
    cases h
  | some n =>
    rw [hn] at h
    obtain rfl := Option.some.inj h
    cases (splitSign cs).1 <;> simp

/-- What is read as an integer is read as its float too, but for the sign of zero. -/
theorem float?_of_integer? {cs : List Char} {z : ℤ} (h : integer? cs = some z) (hz : z.natAbs ≤ 2 ^ 63) :
    float? cs = some (Float.ofInt z) ∨ z = 0 ∧ float? cs = some (-0) := by
  obtain ⟨hdigits, hsigned⟩ := natural?_of_integer? h
  obtain ⟨hword, hunsigned⟩ := unsigned?_of_natural? hdigits
  rw [float?, hword, hunsigned, Option.none_or, Option.map_some, Option.map_some, toFloat_natural hz]
  cases hsign : (splitSign cs).1 with
  | false =>
    rw [hsign, if_neg Bool.false_ne_true] at hsigned
    rw [hsigned]
    exact .inl rfl
  | true =>
    rw [hsign, if_pos rfl] at hsigned
    cases habs : z.natAbs with
    | zero =>
      obtain rfl := Int.natAbs_eq_zero.1 habs
      exact .inr ⟨rfl, by decide +kernel⟩
    | succ n =>
      rw [hsigned, habs]
      exact .inl rfl

theorem beq_of_integer? {cs : List Char} {z : ℤ} (h : integer? cs = some z) (hz : z.natAbs ≤ 2 ^ 63) {y : Float}
    (hread : float? cs = some y) (hy : y.isNaN = false) : (Float.ofInt z == y) = true := by
  rcases float?_of_integer? h hz with hsame | ⟨rfl, hzero⟩
  · obtain rfl : Float.ofInt z = y := Option.some.inj (hsame.symm.trans hread)
    exact float_beq_self hy
  · obtain rfl : -0 = y := Option.some.inj (hzero.symm.trans hread)
    decide +kernel

end Decimal

theorem toInt_of_toInt64? {z : ℤ} {n : Int64} (h : toInt64? z = some n) : n.toInt = z := by
  rw [toInt64?, Option.ite_none_right_eq_some, Option.some.injEq] at h
  obtain ⟨⟨hlower, hupper⟩, rfl⟩ := h
  have hmax : Int64.maxValue.toInt = 2 ^ 63 - 1 := rfl
  exact Int64.toInt_ofInt_of_le hlower (by omega)

theorem natAbs_toInt_le (n : Int64) : n.toInt.natAbs ≤ 2 ^ 63 := by
  have hlower := n.minValue_le_toInt
  have hupper := n.toInt_le
  have hmin : Int64.minValue.toInt = -2 ^ 63 := rfl
  have hmax : Int64.maxValue.toInt = 2 ^ 63 - 1 := rfl
  omega

namespace Value

/-- A cell of a numeric column and the same characters alone are one number. -/
theorem number?_infer {type : ValueType} (htype : type ≠ .string) {s : String} {stored : Value}
    (h : Delimited.readAs type s = some stored) :
    ∃ x y, (infer s).number? = some x ∧ stored.number? = some y ∧ (x == y) = true := by
  cases type with
  | string => exact absurd rfl htype
  | int =>
    obtain ⟨n, hn, rfl⟩ := Option.map_eq_some_iff.1 h
    refine ⟨nearestFloat n, nearestFloat n, ?_, rfl, ?_⟩
    · rw [infer, hn]
      rfl
    · exact Decimal.float_beq_self (Decimal.isNaN_ofInt (natAbs_toInt_le n))
  | float =>
    obtain ⟨y, hy, rfl⟩ := Option.map_eq_some_iff.1 h
    have hnan : y.isNaN = false := Decimal.isNaN_of_isFinite (Option.filter_eq_some_iff.1 hy).2
    cases hint : readInt64? s.toList with
    | some n =>
      refine ⟨nearestFloat n, y, by rw [infer, hint]; rfl, rfl, ?_⟩
      obtain ⟨z, hz, hn⟩ := Option.bind_eq_some_iff.1 hint
      obtain rfl := toInt_of_toInt64? hn
      exact Decimal.beq_of_integer? hz (natAbs_toInt_le n) (Option.filter_eq_some_iff.1 hy).1 hnan
    | none =>
      refine ⟨y, y, by rw [infer, hint, hy]; rfl, rfl, ?_⟩
      exact Decimal.float_beq_self hnan

end Value

namespace Classified

theorem columnType_of_type {type : ValueType} {cells : List (Option Value)} (h : ∀ v, some v ∈ cells → v.type = type)
    {declared : Option ValueType} (hdeclared : declared = some .string → type = .string) {v : Value}
    (hv : some v ∈ cells) : columnType declared cells = .string ↔ type = .string := by
  have hmem : v ∈ cells.reduceOption := List.reduceOption_mem_iff.2 hv
  rw [columnType_eq_string_iff]
  constructor
  · rintro (hstring | ⟨s, hs⟩ | ⟨hnone, -⟩)
    · exact hdeclared hstring
    · exact (h _ (List.reduceOption_mem_iff.1 hs)).symm
    · exact absurd hnone (List.ne_nil_of_mem hmem)
  · intro htype
    have hstring : v.type = .string := (h v hv).trans htype
    cases v with
    | int n => cases hstring
    | float x => cases hstring
    | text s => exact .inr (.inl ⟨s, hmem⟩)

end Classified

namespace Delimited

theorem type_of_mem_values {name : String} {cells : List String} :
    ∀ v, some v ∈ (column name cells).values → v.type = readType name cells := by
  intro v hv
  rw [values_column_eq] at hv
  obtain ⟨s, -, hs⟩ := exists_present_of_mem hv
  exact type_of_readAs hs

theorem getElem?_values_column {name : String} {cells : List String} {i : ℕ} {s : String} (hi : cells[i]? = some s)
    (hs : s ∈ present cells) : (column name cells).values[i]? = some (readAs (readType name cells) s) := by
  rw [values_column_eq, List.getElem?_map, hi, Option.map_some, cellWith, if_neg (by simpa using (mem_present.1 hs).2)]

theorem filterMap_display (cells : List String) :
    (cells.map (cellWith readText?)).filterMap (fun cell => cell.map Value.display) = present cells := by
  rw [List.filterMap_map, present, ← List.filterMap_eq_filter]
  apply List.filterMap_congr
  intro s _
  by_cases hs : s.isEmpty
  · simp [cellWith, hs, Option.guard]
  · simp [cellWith, hs, Option.guard, readText?, Value.display]

theorem count_present {cells : List String} {t : String} (h : t ∈ present cells) :
    (present cells).count t = cells.count t := by
  rw [present, List.count_filter]
  simpa using (mem_present.1 h).2

end Delimited

namespace Record

theorem isSome_estimateNumber {r : Record} (hleast : r.least.isSome) (op : Comparison) (target : Float) :
    (r.estimateNumber op target).isSome := by
  have hrange : ∀ op : Comparison, (if r.histogram.isEmpty then
      r.least.map fun only => if op.holds only.toFloat target then (1 : Float) else 0
      else some (r.interpolate op target)).isSome := by
    intro op
    split
    · rwa [Option.isSome_map]
    · rfl
  cases op with
  | eq => rfl
  | ne => rfl
  | lt => exact hrange .lt
  | le => exact hrange .le
  | gt => exact hrange .gt
  | ge => exact hrange .ge

section
variable {maxBins : ℕ} {declared : Option ValueType} {c : Column} (htype : (ofColumn maxBins declared c).type ≠ .string)
include htype

theorem isSome_least (hcount : (ofColumn maxBins declared c).count ≠ 0) : (ofColumn maxBins declared c).least.isSome := by
  rw [ofColumn, (ofClassified_eq ..).1] at htype
  rw [ofColumn, (ofClassified_eq ..).2] at hcount
  rw [ofColumn, ofClassified]
  simp only [classify] at htype hcount ⊢
  generalize Classified.columnType (declared.or c.declared) c.values = type at *
  cases type with
  | string => exact absurd rfl htype
  | int =>
    simp only [Classified.typed, Typed.length] at hcount ⊢
    cases hns : c.values.filterMap fun cell => cell.bind Value.int? with
    | nil =>
      rw [hns] at hcount
      exact absurd rfl hcount
    | cons n ns => rfl
  | float =>
    simp only [Classified.typed, Typed.length] at hcount ⊢
    rw [spreadOfFloats?, if_neg (mt List.length_eq_zero_iff.2 hcount)]
    rfl

theorem isSome_estimate {v : Value} {x : Float} (hv : v.number? = some x) (op : Comparison) :
    ((ofColumn maxBins declared c).estimate op v).isSome := by
  by_cases hcount : (ofColumn maxBins declared c).count = 0
  · rw [estimate, if_pos hcount]
    rfl
  · rw [estimate, if_neg hcount, if_neg htype, hv, Option.bind_some]
    exact isSome_estimateNumber (isSome_least htype hcount) op x

end

open Delimited

section
variable (maxBins : ℕ) {declared : Option ValueType} {name : String} {cells : List String}
  (hdeclared : declared.or (column name cells).declared = (column name cells).declared) {s : String}
  (hs : s ∈ present cells)
include hdeclared hs

theorem type_ofColumn_column : (ofColumn maxBins declared (column name cells)).type = .string ↔
    readType name cells = .string := by
  obtain ⟨v, hv⟩ := Option.isSome_iff_exists.1 (readAs_isSome name hs)
  obtain ⟨i, hi⟩ := List.getElem?_of_mem (mem_present.1 hs).1
  have hcell : some v ∈ (column name cells).values := by
    apply List.mem_of_getElem? (i := i)
    rw [getElem?_values_column hi hs, hv]
  rw [ofColumn, hdeclared, (ofClassified_eq ..).1]
  refine Classified.columnType_of_type type_of_mem_values ?_ hcell
  exact fun hstring => readType_of_declared (Option.ite_none_left_eq_some.1 hstring).2

theorem ofColumn_texts (hstring : (ofColumn maxBins declared (column name cells)).type = .string) :
    (ofColumn maxBins declared (column name cells)).count = (present cells).length ∧
      ∀ t, (ofColumn maxBins declared (column name cells)).histogram.frequencies[t]? =
        if t ∈ present cells then some (cells.count t) else none := by
  have htype := (type_ofColumn_column maxBins hdeclared hs).1 hstring
  have htexts : (classify (declared.or (column name cells).declared) (column name cells).values).values =
      .text (present cells) := by
    rw [ofColumn, (ofClassified_eq ..).1] at hstring
    simp only [classify] at hstring ⊢
    rw [hstring, values_column_eq, htype]
    exact congrArg Typed.text (filterMap_display cells)
  rw [ofColumn, (ofClassified_eq ..).2, histogram_ofClassified _ _ _ htexts, htexts]
  refine ⟨rfl, ?_⟩
  intro t
  rw [Histogram.getElem?_countTexts]
  split
  · rename_i ht
    rw [count_present ht, positive?_of_ne]
    exact (List.count_pos_iff.2 (mem_present.1 ht).1).ne'
  · rename_i ht
    rw [List.count_eq_zero.2 ht]
    rfl

theorem estimate_readLiteral_text (hstring : (ofColumn maxBins declared (column name cells)).type = .string) :
    (ofColumn maxBins declared (column name cells)).estimate .eq
        ((ofColumn maxBins declared (column name cells)).readLiteral s) =
      some (Float.ofNat (cells.count s) / Float.ofNat (ofColumn maxBins declared (column name cells)).count) := by
  obtain ⟨hcount, hfrequencies⟩ := ofColumn_texts maxBins hdeclared hs hstring
  have hne : (ofColumn maxBins declared (column name cells)).count ≠ 0 := by
    rw [hcount]
    exact (List.length_pos_of_mem hs).ne'
  rw [readLiteral, if_pos hstring, estimate, if_neg hne, if_pos hstring, estimateText, frequency, Value.display,
    hfrequencies, if_pos hs]

theorem number?_readLiteral (hnumeric : (ofColumn maxBins declared (column name cells)).type ≠ .string) :
    ∃ stored x y, readAs (readType name cells) s = some stored ∧
      ((ofColumn maxBins declared (column name cells)).readLiteral s).number? = some x ∧ stored.number? = some y ∧
      (x == y) = true := by
  obtain ⟨stored, hstored⟩ := Option.isSome_iff_exists.1 (readAs_isSome name hs)
  obtain ⟨x, y, hx, hy, hxy⟩ :=
    Value.number?_infer (mt (type_ofColumn_column maxBins hdeclared hs).2 hnumeric) hstored
  rw [readLiteral, if_neg hnumeric]
  exact ⟨stored, x, y, hstored, hx, hy, hxy⟩

end

/-- A literal is read as the cells of the same characters are. For a column of texts the answer is their share of all
    texts, and for one of numbers every comparison is answered, with the number that was loaded. -/
theorem estimate_readLiteral (maxBins : ℕ) {declared : Option ValueType} {name : String} {cells : List String}
    (hdeclared : declared.or (column name cells).declared = (column name cells).declared) {s : String}
    (hs : s ∈ present cells) :
    let c := column name cells
    let r := ofColumn maxBins declared c
    let literal := r.readLiteral s
    (r.estimate .eq literal).isSome ∧
      (r.type = .string →
        (∀ t, r.histogram.frequencies[t]? = if t ∈ present cells then some (cells.count t) else none) ∧
          r.estimate .eq literal = some (Float.ofNat (cells.count s) / Float.ofNat r.count)) ∧
      (r.type ≠ .string →
        (∀ i : ℕ, cells[i]? = some s → ∃ stored x y, c.values[i]? = some (some stored) ∧ literal.number? = some x ∧
          stored.number? = some y ∧ (x == y) = true) ∧
        ∀ op, (r.estimate op literal).isSome) := by
  intro c r literal
  have hanswered : r.type ≠ .string → ∀ op, (r.estimate op literal).isSome := by
    intro hnumeric
    obtain ⟨-, x, -, -, hx, -⟩ := number?_readLiteral maxBins hdeclared hs hnumeric
    exact isSome_estimate hnumeric hx
  refine ⟨?_, ?_, ?_⟩
  · by_cases hstring : r.type = .string
    · exact Option.isSome_of_eq_some (estimate_readLiteral_text maxBins hdeclared hs hstring)
    · exact hanswered hstring .eq
  · intro hstring
    exact ⟨(ofColumn_texts maxBins hdeclared hs hstring).2, estimate_readLiteral_text maxBins hdeclared hs hstring⟩
  · intro hnumeric
    refine ⟨?_, hanswered hnumeric⟩
    intro i hi
    obtain ⟨stored, x, y, hstored, hnumbers⟩ := number?_readLiteral maxBins hdeclared hs hnumeric
    exact ⟨stored, x, y, by rw [getElem?_values_column hi hs, hstored], hnumbers⟩

/-- The same cells under a header for integers, where a float among them makes all of them floats, and as texts. -/
theorem estimate_readLiteral_minusZero :
    let cells := ["007", "", "-0", "9223372036854775808", "007"]
    let numbers := column "score:int" cells
    let texts := column "score:string" cells
    let r := ofColumn 10 none numbers
    let q := ofColumn 10 none texts
    (none : Option ValueType).or numbers.declared = numbers.declared ∧
      (none : Option ValueType).or texts.declared = texts.declared ∧ "-0" ∈ present cells ∧ "007" ∈ present cells ∧
      r.type = .float ∧ (∃ stored x y, numbers.values[2]? = some (some stored) ∧ (r.readLiteral "-0").number? = some x ∧
        stored.number? = some y ∧ (x == y) = true) ∧ (r.estimate .ge (r.readLiteral "-0")).isSome ∧
      q.type = .string ∧ q.histogram.frequencies["007"]? = some 2 ∧
      q.estimate .eq (q.readLiteral "007") = some (Float.ofNat 2 / Float.ofNat q.count) := by
  intro cells numbers texts r q
  have hnumbers : (none : Option ValueType).or numbers.declared = numbers.declared := rfl
  have htexts : (none : Option ValueType).or texts.declared = texts.declared := rfl
  have hminus : "-0" ∈ present cells := by decide +kernel
  have hseven : "007" ∈ present cells := by decide +kernel
  have hfloat : r.type = .float := by decide +kernel
  have hstring : q.type = .string := by decide +kernel
  have hnumeric : r.type ≠ .string := by
    rw [hfloat]
    decide
  obtain ⟨hloaded, hanswered⟩ := (estimate_readLiteral 10 hnumbers hminus).2.2 hnumeric
  obtain ⟨hcounted, hshare⟩ := (estimate_readLiteral 10 htexts hseven).2.1 hstring
  refine ⟨hnumbers, htexts, hminus, hseven, hfloat, hloaded 2 rfl, hanswered .ge, hstring, ?_, hshare⟩
  have hcount := hcounted "007"
  rw [if_pos hseven] at hcount
  exact hcount

end Record

end GraphProfile
