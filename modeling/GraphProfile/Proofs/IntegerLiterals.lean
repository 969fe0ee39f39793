import GraphProfile.Proofs.Decoding
import GraphProfile.Proofs.Literals

set_option autoImplicit false

namespace GraphProfile

namespace Decimal

/-- The value of digits by their places, the last one being that of the units. -/
def placeValue (digits : List Char) : ℕ := Nat.ofDigits 10 (digits.reverse.map fun c => c.toNat - '0'.toNat)

/-- An optional sign, and ASCII digits of which there is at least one. -/
def Denotes (cs : List Char) (z : ℤ) : Prop :=
  ∃ sign digits : List Char, cs = sign ++ digits ∧ (sign = [] ∨ sign = ['+'] ∨ sign = ['-']) ∧ digits ≠ [] ∧
    (∀ c ∈ digits, '0' ≤ c ∧ c ≤ '9') ∧ z = if sign = ['-'] then -(placeValue digits : ℤ) else placeValue digits

theorem isDigit_iff (c : Char) : c.isDigit ↔ '0' ≤ c ∧ c ≤ '9' := by
  rw [Char.isDigit, Bool.and_eq_true, decide_eq_true_iff, decide_eq_true_iff]
  rfl

theorem allDigits_iff {cs : List Char} : AllDigits cs ↔ ∀ c ∈ cs, '0' ≤ c ∧ c ≤ '9' :=
  forall₂_congr fun c _ => isDigit_iff c

theorem digitsValue_eq_placeValue (cs : List Char) : digitsValue cs = placeValue cs := by
  induction cs using List.reverseRecOn with
  | nil => rfl
  | append_singleton cs c ih =>
    rw [digitsValue_append, ih, placeValue, placeValue, List.reverse_append, List.reverse_singleton,
      List.singleton_append, List.map_cons, Nat.ofDigits_cons, List.length_singleton, pow_one]
    change _ + (10 * 0 + (c.toNat - 48)) = c.toNat - 48 + _
    omega

theorem natural?_eq_some_iff {cs : List Char} {n : ℕ} :
    natural? cs = some n ↔ cs ≠ [] ∧ AllDigits cs ∧ n = placeValue cs := by
  rw [natural?, Option.ite_none_right_eq_some, Option.some.injEq, List.all_eq_true, and_assoc, digitsValue_eq_placeValue,
    eq_comm]
  rfl

theorem splitSign_append {sign digits : List Char} (hsign : sign = [] ∨ sign = ['+'] ∨ sign = ['-'])
    (hne : digits ≠ []) (hdigits : AllDigits digits) :
    splitSign (sign ++ digits) = (decide (sign = ['-']), digits) := by
  rcases hsign with rfl | rfl | rfl
  · cases digits with
    | nil => exact absurd rfl hne
    | cons c digits => exact splitSign_of_isDigit (hdigits c List.mem_cons_self) digits
  · rfl
  · rfl

theorem exists_sign (cs : List Char) :
    ∃ sign, (sign = [] ∨ sign = ['+'] ∨ sign = ['-']) ∧ cs = sign ++ (splitSign cs).2 ∧
      ((splitSign cs).1 ↔ sign = ['-']) := by
  unfold splitSign
  split
  · exact ⟨['-'], .inr (.inr rfl), rfl, iff_of_true rfl rfl⟩
  · exact ⟨['+'], .inr (.inl rfl), rfl, iff_of_false Bool.false_ne_true (by decide)⟩
  · exact ⟨[], .inl rfl, rfl, iff_of_false Bool.false_ne_true (by decide)⟩

theorem integer?_eq (cs : List Char) :
    integer? cs = (natural? (splitSign cs).2).map fun n : ℕ => if (splitSign cs).1 then -(n : ℤ) else n := by
  rw [integer?]
  cases natural? (splitSign cs).2 <;> rfl

theorem integer?_eq_some_iff {cs : List Char} {z : ℤ} : integer? cs = some z ↔ Denotes cs z := by
  rw [integer?_eq, Option.map_eq_some_iff]
  constructor
  · rintro ⟨n, hn, rfl⟩
    obtain ⟨hne, hdigits, rfl⟩ := natural?_eq_some_iff.1 hn
    obtain ⟨sign, hsign, hcs, hminus⟩ := exists_sign cs
    refine ⟨sign, (splitSign cs).2, hcs, hsign, hne, allDigits_iff.1 hdigits, ?_⟩
    simp only [hminus]
  · rintro ⟨sign, digits, rfl, hsign, hne, hdigits, rfl⟩
    have hall := allDigits_iff.2 hdigits
    rw [splitSign_append hsign hne hall]
    refine ⟨placeValue digits, natural?_eq_some_iff.2 ⟨hne, hall, rfl⟩, ?_⟩
    simp only [decide_eq_true_eq]

end Decimal

theorem readInt64?_eq_some_iff {cs : List Char} {n : Int64} :
    readInt64? cs = some n ↔ ∃ z : ℤ, Decimal.Denotes cs z ∧ -2 ^ 63 ≤ z ∧ z ≤ 2 ^ 63 - 1 ∧ n.toInt = z := by
  rw [readInt64?, Option.bind_eq_some_iff]
  constructor
  · rintro ⟨z, hz, hn⟩
    obtain rfl := toInt_of_toInt64? hn
    exact ⟨n.toInt, Decimal.integer?_eq_some_iff.1 hz, n.minValue_le_toInt, Int.le_sub_one_of_lt n.toInt_lt, rfl⟩
  · rintro ⟨_, hz, -, -, rfl⟩
    exact ⟨n.toInt, Decimal.integer?_eq_some_iff.2 hz, toInt64?_toInt n⟩

namespace Value

theorem infer_eq_int_iff {raw : String} {n : Int64} : infer raw = .int n ↔ readInt64? raw.toList = some n := by
  rw [infer]
  split
  · rename_i m hm
    rw [hm, Option.some.injEq, Value.int.injEq]
  · rename_i hnone
    rw [hnone]
    refine iff_of_false ?_ (Option.some_ne_none n).symm
    split <;> exact Value.noConfusion

theorem isFinite_of_infer {raw : String} {x : Float} (h : infer raw = .float x) : x.isFinite := by
  rw [infer] at h
  split at h
  · cases h
  · split at h
    · rename_i hread
      cases h
      exact Json.isFinite_of_readFinite? hread
    · cases h

theorem eq_of_infer {raw s : String} (h : infer raw = .text s) : s = raw := by
  rw [infer] at h
  split at h
  · cases h
  · split at h
    · cases h
    · cases h
      rfl

theorem infer_display (n : Int64) : infer (Value.int n).display = .int n := by
  rw [infer_eq_int_iff, display, readInt64?, integer?_toString, Option.bind_some, toInt64?_toInt]

end Value

namespace Delimited

/-- Read together with the others of its column, a cell is no integer that it is not by itself. -/
theorem infer_of_getElem? {name : String} {cells : List String} {i : ℕ} {n : Int64}
    (h : (column name cells).values[i]? = some (some (.int n))) :
    ∃ s, cells[i]? = some s ∧ Value.infer s = .int n := by
  rw [values_column_eq, List.getElem?_map] at h
  obtain ⟨s, hs, hcell⟩ := Option.map_eq_some_iff.1 h
  refine ⟨s, hs, ?_⟩
  rw [cellWith, Option.ite_none_left_eq_some] at hcell
  obtain ⟨-, hread⟩ := hcell
  rw [Value.infer_eq_int_iff]
  have htype : ValueType.int = readType name cells := type_of_readAs hread
  rw [← htype] at hread
  obtain ⟨m, hm, hmn⟩ := Option.map_eq_some_iff.1 hread
  cases hmn
  exact hm

end Delimited

/-- A literal is an integer exactly if it is written as one within the bounds of 64 bits; else it is a finite float or
    the text as it stands. What an integer is displayed as is that integer, and a cell that its column makes an integer is
    the same one by itself. -/
theorem Value.infer_of_digits (raw : String) :
    (∀ n : Int64, infer raw = .int n ↔
        ∃ z : ℤ, Decimal.Denotes raw.toList z ∧ -2 ^ 63 ≤ z ∧ z ≤ 2 ^ 63 - 1 ∧ n.toInt = z) ∧
      (∀ x, infer raw = .float x → x.isFinite) ∧ (∀ s, infer raw = .text s → s = raw) ∧
      (∀ n : Int64, infer (Value.int n).display = .int n) ∧
      ∀ name cells (i : ℕ) (n : Int64), (Delimited.column name cells).values[i]? = some (some (.int n)) →
        ∃ s, cells[i]? = some s ∧ infer s = .int n := by
  refine ⟨?_, ?_, ?_, infer_display, ?_⟩
  · intro n
    rw [infer_eq_int_iff, readInt64?_eq_some_iff]
  · exact fun x => isFinite_of_infer
  · exact fun s => eq_of_infer
  · exact fun name cells i n => Delimited.infer_of_getElem?

/-- Both bounds, one past the upper one, a bare sign, and a column of zeros in front. -/
theorem Value.infer_of_digits_bounds :
    infer "-9223372036854775808" = .int Int64.minValue ∧ infer "+09223372036854775807" = .int Int64.maxValue ∧
      (∃ x, infer "9223372036854775808" = .float x ∧ x.isFinite) ∧ (∃ s, infer "-" = .text s ∧ s = "-") ∧
      (∀ n, infer "-" ≠ .int n) ∧ infer (Value.int Int64.minValue).display = .int Int64.minValue ∧
      (Delimited.column "n" ["", "-007"]).values[1]? = some (some (.int (-7))) ∧ infer "-007" = .int (-7) := by
  have hleast : Decimal.Denotes "-9223372036854775808".toList (-9223372036854775808) :=
    ⟨['-'], "9223372036854775808".toList, rfl, .inr (.inr rfl), by decide,
      Decimal.allDigits_iff.1 (List.all_eq_true.1 (by decide)), by decide +kernel⟩
  have hgreatest : Decimal.Denotes "+09223372036854775807".toList 9223372036854775807 :=
    ⟨['+'], "09223372036854775807".toList, rfl, .inr (.inl rfl), by decide,
      Decimal.allDigits_iff.1 (List.all_eq_true.1 (by decide)), by decide +kernel⟩
  have hbeyond : ∃ x, infer "9223372036854775808" = .float x := ⟨9223372036854775808, by decide +kernel⟩
  have hsign : ∃ s, infer "-" = .text s := ⟨"-", by decide +kernel⟩
  have hcell : (Delimited.column "n" ["", "-007"]).values[1]? = some (some (.int (-7))) := by decide +kernel
  refine ⟨?_, ?_, ?_, ?_, ?_, ?_, hcell, ?_⟩
  · exact ((infer_of_digits "-9223372036854775808").1 _).2 ⟨_, hleast, by decide, by decide, rfl⟩
  · exact ((infer_of_digits "+09223372036854775807").1 _).2 ⟨_, hgreatest, by decide, by decide, rfl⟩
  · obtain ⟨x, hx⟩ := hbeyond
    exact ⟨x, hx, (infer_of_digits "9223372036854775808").2.1 x hx⟩
  · obtain ⟨s, hs⟩ := hsign
    exact ⟨s, hs, (infer_of_digits "-").2.2.1 s hs⟩
  · obtain ⟨s, hs⟩ := hsign
    rw [hs]
    exact fun n => Value.noConfusion
  · exact (infer_of_digits "").2.2.2.1 _
  · obtain ⟨s, hs, hinfer⟩ := (infer_of_digits "-007").2.2.2.2 "n" _ 1 _ hcell
    cases hs
    exact hinfer

end GraphProfile
