import GraphProfile.Decimal.Layout
import GraphProfile.Proofs.Nearest
import GraphProfile.Proofs.Spellings

set_option autoImplicit false

namespace GraphProfile.Decimal

namespace Layout

def spell (l : Layout) (d : Decimal) : Spelling :=
  let ds := digitChars d.digits
  let lead := d.exponent + ds.length - 1
  let places := (-d.exponent).toNat
  if l.positional lead then
    if 0 ≤ d.exponent then ⟨ds ++ zeros d.exponent.toNat, if l.pointZero then ['0'] else [], none⟩
    else if places < ds.length then ⟨ds.take (ds.length - places), ds.drop (ds.length - places), none⟩
    else ⟨['0'], zeros (places - ds.length) ++ ds, none⟩
  else ⟨ds.take 1, ds.drop 1, some (if lead < 0 then ['-'] else if l.plusSign then ['+'] else [], digitChars lead.natAbs)⟩

variable (l : Layout) (d : Decimal)

theorem chars_spell : (l.spell d).chars = l.decimalChars d := by
  have hlength : 0 < (digitChars d.digits).length := Nat.length_toDigits_pos
  rw [spell, decimalChars]
  split
  · rw [positionalChars]
    split
    · cases l.pointZero <;> simp [Spelling.chars, Spelling.fractionChars, Spelling.powerChars]
    · split
      · rename_i hplaces
        have hpart : ¬(digitChars d.digits).length ≤ (digitChars d.digits).length - (-d.exponent).toNat := by omega
        simp [Spelling.chars, Spelling.fractionChars, Spelling.powerChars, hplaces, hpart]
      · rename_i hplaces
        simp [Spelling.chars, Spelling.fractionChars, Spelling.powerChars, hplaces, digitChars_ne_nil]
  · have hone : (digitChars d.digits).drop 1 = [] ↔ (digitChars d.digits).length ≤ 1 := List.drop_eq_nil_iff
    rw [exponentChars, Spelling.chars, Spelling.fractionChars, Spelling.powerChars]
    simp only [hone, List.append_assoc]

theorem allDigits_take {cs : List Char} (h : AllDigits cs) (n : ℕ) : AllDigits (cs.take n) :=
  fun c hc => h c (List.mem_of_mem_take hc)

theorem allDigits_drop {cs : List Char} (h : AllDigits cs) (n : ℕ) : AllDigits (cs.drop n) :=
  fun c hc => h c (List.mem_of_mem_drop hc)

theorem wellFormed_spell : (l.spell d).WellFormed := by
  have hne := digitChars_ne_nil d.digits
  have hlength : 0 < (digitChars d.digits).length := Nat.length_toDigits_pos
  have hdigits := allDigits_digitChars d.digits
  rw [spell]
  split
  · split
    · refine ⟨by simp [hne], allDigits_append hdigits (allDigits_zeros _), ?_, by simp⟩
      cases l.pointZero
      · exact fun _ hc => absurd hc List.not_mem_nil
      · exact allDigits_zeros 1
    · split
      · refine ⟨?_, allDigits_take hdigits _, allDigits_drop hdigits _, by simp⟩
        rw [Ne, List.take_eq_nil_iff, or_iff_left hne]
        omega
      · exact ⟨by simp, allDigits_zeros 1, allDigits_append (allDigits_zeros _) hdigits, by simp⟩
  · refine ⟨?_, allDigits_take hdigits 1, allDigits_drop hdigits 1, ?_⟩
    · rw [Ne, List.take_eq_nil_iff, or_iff_left hne]
      omega
    · intro p hp
      cases hp
      refine ⟨?_, digitChars_ne_nil _, allDigits_digitChars _⟩
      simp only
      split
      · exact .inr (.inr rfl)
      · split
        · exact .inr (.inl rfl)
        · exact .inl rfl

theorem value_mk (n : ℕ) (e : ℤ) (k : ℕ) : (⟨n * 10 ^ k, e - k⟩ : Decimal).value = (⟨n, e⟩ : Decimal).value := by
  rw [value, value, zpow_sub₀ (by norm_num), zpow_natCast]
  push_cast
  field_simp

theorem powerValue_signed (plus : Bool) (lead : ℤ) :
    Spelling.powerValue (some (if lead < 0 then ['-'] else if plus then ['+'] else [], digitChars lead.natAbs)) =
      lead := by
  have hdigits := digitsValue_digitChars lead.natAbs
  rw [Spelling.powerValue, hdigits]
  by_cases hlead : lead < 0
  · simp only [hlead, if_true]
    omega
  · have hsign : (if plus then ['+'] else []) ≠ ['-'] := by cases plus <;> decide
    simp only [hlead, if_false, hsign]
    omega

theorem value_spell : (l.spell d).decimal.value = d.value := by
  have hlength : 0 < (digitChars d.digits).length := Nat.length_toDigits_pos
  have hdigits := digitsValue_digitChars d.digits
  rw [spell]
  split
  · split
    · rename_i he
      have hwhole := value_mk d.digits d.exponent d.exponent.toNat
      rw [Int.toNat_of_nonneg he, Int.sub_self] at hwhole
      have hzeros : digitsValue (digitChars d.digits ++ zeros d.exponent.toNat) = d.digits * 10 ^ d.exponent.toNat := by
        rw [digitsValue_append, hdigits, digitsValue_zeros, zeros, List.length_replicate, Nat.add_zero]
      rw [← hwhole]
      cases l.pointZero
      · rw [Spelling.decimal]
        simp only [Bool.false_eq_true, if_false, List.append_nil]
        rw [hzeros]
        rfl
      · have hpoint := value_mk (d.digits * 10 ^ d.exponent.toNat) 0 1
        rw [← hpoint, Spelling.decimal, ← hzeros]
        simp only [if_true]
        rw [digitsValue_append]
        rfl
    · split
      · rename_i he hplaces
        have hexponent : Spelling.powerValue none - ((-d.exponent).toNat : ℤ) = d.exponent := by
          change 0 - _ = _
          omega
        rw [Spelling.decimal]
        simp only
        rw [List.take_append_drop, hdigits, List.length_drop, Nat.sub_sub_self hplaces.le, hexponent]
      · rename_i he hplaces
        have hexponent : Spelling.powerValue none - ((-d.exponent).toNat : ℤ) = d.exponent := by
          change 0 - _ = _
          omega
        have hzero : digitsValue ['0'] = 0 := rfl
        rw [Spelling.decimal]
        simp only
        rw [digitsValue_append, digitsValue_append, digitsValue_zeros, hdigits, hzero, List.length_append, zeros,
          List.length_replicate, Nat.sub_add_cancel (not_lt.1 hplaces), hexponent, Nat.zero_mul, Nat.zero_mul,
          Nat.zero_add, Nat.zero_add]
  · have hpower := powerValue_signed l.plusSign (d.exponent + (digitChars d.digits).length - 1)
    have hexponent : d.exponent + (digitChars d.digits).length - 1 - ((digitChars d.digits).length - 1 : ℕ) =
        d.exponent := by omega
    rw [Spelling.decimal]
    simp only
    rw [List.take_append_drop, hdigits, List.length_drop, hpower, hexponent]

theorem head?_digitChars {n : ℕ} (hn : n ≠ 0) : (digitChars n).head? ≠ some '0' := by
  induction n using Nat.strong_induction_on with
  | h n ih =>
    rw [digitChars]
    by_cases hten : n < 10
    · rw [Nat.toDigits_of_lt_base hten]
      revert hn
      interval_cases n <;> decide
    · rw [Nat.toDigits_of_base_le (by norm_num) (by omega), List.head?_append_of_ne_nil _ Nat.toDigits_ne_nil]
      exact ih (n / 10) (by omega) (by omega)

theorem whole_spell_cases :
    (l.spell d).whole = ['0'] ∨ (l.spell d).whole = digitChars d.digits ++ zeros d.exponent.toNat ∨
      ∃ k, 0 < k ∧ (l.spell d).whole = (digitChars d.digits).take k := by
  rw [spell]
  split
  · split
    · exact .inr (.inl rfl)
    · split
      · exact .inr (.inr ⟨_, by omega, rfl⟩)
      · exact .inl rfl
  · exact .inr (.inr ⟨1, one_pos, rfl⟩)

theorem whole_spell (h : d.digits ≠ 0 ∨ d.exponent = 0) (hzero : (l.spell d).whole.head? = some '0') :
    (l.spell d).whole = ['0'] := by
  have hne := digitChars_ne_nil d.digits
  rcases whole_spell_cases l d with hwhole | hwhole | ⟨k, hk, hwhole⟩
  · exact hwhole
  · rw [hwhole] at hzero ⊢
    rw [List.head?_append_of_ne_nil _ hne] at hzero
    have hdigits : d.digits = 0 := by_contra fun hdigits => head?_digitChars hdigits hzero
    have hexponent : d.exponent = 0 := h.resolve_left (not_not.2 hdigits)
    rw [hdigits, hexponent]
    rfl
  · rw [hwhole] at hzero ⊢
    rw [List.head?_take, if_neg hk.ne'] at hzero
    have hdigits : d.digits = 0 := by_contra fun hdigits => head?_digitChars hdigits hzero
    rw [hdigits]
    exact List.take_of_length_le hk

theorem part_or_power_spell (h : l.pointZero = true) : (l.spell d).part ≠ [] ∨ (l.spell d).power ≠ none := by
  have hne := digitChars_ne_nil d.digits
  rw [spell]
  split
  · left
    split
    · exact List.cons_ne_nil _ _
    · split
      · rw [Ne, List.drop_eq_nil_iff]
        omega
      · simp [hne]
  · exact .inr (Option.some_ne_none _)

end Layout

theorem word?_of_isDigit {c : Char} (hc : c.isDigit) (cs : List Char) : word? (c :: cs) = none := by
  have hlower : c.toLower = c := by
    have hrange : 48 ≤ c.toNat ∧ c.toNat ≤ 57 := by simpa [Char.isDigit, UInt32.le_iff_toNat_le] using hc
    have hupper : ¬(c.val ≥ 'A'.val ∧ c.val ≤ 'Z'.val) := by
      rw [ge_iff_le, UInt32.le_iff_toNat_le, UInt32.le_iff_toNat_le]
      change ¬(65 ≤ c.toNat ∧ c.toNat ≤ 90)
      omega
    rw [Char.toLower, dif_neg hupper]
  have hhead : ∀ {s : String} {d : Char}, s.toList.head? = some d → d.isDigit = false →
      String.ofList ((c :: cs).map Char.toLower) ≠ s := by
    intro s d hs hd he
    rw [← he, String.toList_ofList, List.map_cons, List.head?_cons, hlower, Option.some.injEq] at hs
    rw [hs, hd] at hc
    cases hc
  rw [word?]
  split
  · rename_i h
    exact absurd h (hhead rfl rfl)
  · rename_i h
    exact absurd h (hhead rfl rfl)
  · rename_i h
    exact absurd h (hhead rfl rfl)
  · rfl

namespace Layout

variable (l : Layout) {x : Float}

def decimalOf (x : Float) : Decimal := if magnitude x = 0 then ⟨0, 0⟩ else shortest l.tie x

theorem chars_of_finite (hfinite : x.isFinite) :
    l.chars x = (if isNegative x then ['-'] else []) ++ (l.spell (l.decimalOf x)).chars := by
  have hnan : x.isNaN = false := by
    change x.toModel.unpack.isFinite = true at hfinite
    change x.toModel.unpack.isNaN = false
    cases h : x.toModel.unpack with
    | notANumber =>
      rw [h] at hfinite
      cases hfinite
    | infinity s => rfl
    | zero s => rfl
    | finite s m e hm => rfl
  rw [chars, hnan, if_neg Bool.false_ne_true, if_pos hfinite, finiteChars, decimalOf, chars_spell,
    apply_ite l.decimalChars]

theorem readsBack_decimalOf (hfinite : x.isFinite) : (l.decimalOf x).ReadsBack x := by
  rw [decimalOf]
  split
  · rename_i hzero
    rw [ReadsBack, hzero]
    rfl
  · exact readsBack_shortest hfinite l.tie

theorem digits_decimalOf (hfinite : x.isFinite) : (l.decimalOf x).digits ≠ 0 ∨ (l.decimalOf x).exponent = 0 := by
  rw [decimalOf]
  split
  · exact .inr rfl
  · rename_i hpos
    left
    intro hzero
    have hback := readsBack_shortest hfinite l.tie
    rw [ReadsBack, toFloat, if_pos (.inl hzero)] at hback
    exact hpos hback.symm

theorem unsigned?_spell (hfinite : x.isFinite) :
    (unsigned? (l.spell (l.decimalOf x)).chars).map toFloat = some (magnitude x) := by
  have hback := readsBack_decimalOf l hfinite
  rw [Spelling.unsigned?_chars (wellFormed_spell l _), Option.map_some, toFloat_eq_of_value (value_spell l _), hback]

theorem float?_chars (hfinite : x.isFinite) : float? (l.chars x) = some x := by
  have hread := unsigned?_spell l hfinite
  have hsigned := signed_magnitude x
  obtain ⟨c, cs, hc, hchars⟩ := (wellFormed_spell l (l.decimalOf x)).exists_cons
  rw [hchars] at hread
  rw [float?, chars_of_finite l hfinite, hchars]
  by_cases hnegative : isNegative x
  · rw [if_pos hnegative] at hsigned ⊢
    rw [List.singleton_append, splitSign, word?_of_isDigit hc, hread, Option.none_or, Option.map_some, if_pos rfl, hsigned]
  · rw [if_neg hnegative] at hsigned ⊢
    rw [List.nil_append, splitSign_of_isDigit hc, word?_of_isDigit hc, hread, Option.none_or, Option.map_some,
      if_neg Bool.false_ne_true, hsigned]

theorem float?_chars_of_not_finite (hfinite : x.isFinite = false) (hnan : x.isNaN = false) :
    float? (l.chars x) = some x := by
  have hself := infinity_cases hfinite hnan
  rw [chars, hnan, hfinite, if_neg Bool.false_ne_true, if_neg Bool.false_ne_true]
  by_cases hnegative : isNegative x
  · rw [if_pos hnegative] at hself ⊢
    rw [hself]
    rfl
  · rw [if_neg hnegative] at hself ⊢
    rw [hself]
    rfl

theorem integer?_chars (hfinite : x.isFinite) (hpoint : l.pointZero = true) : integer? (l.chars x) = none := by
  have hwell := wellFormed_spell l (l.decimalOf x)
  have hnone := Spelling.natural?_chars (part_or_power_spell l (l.decimalOf x) hpoint)
  obtain ⟨c, cs, hc, hchars⟩ := hwell.exists_cons
  rw [hchars] at hnone
  rw [integer?, chars_of_finite l hfinite, hchars]
  by_cases hnegative : isNegative x
  · rw [if_pos hnegative, List.singleton_append, splitSign, hnone]
    rfl
  · rw [if_neg hnegative, List.nil_append, splitSign_of_isDigit hc, hnone]
    rfl

end Layout

end GraphProfile.Decimal
