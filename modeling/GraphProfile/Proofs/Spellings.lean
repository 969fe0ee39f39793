import GraphProfile.Decimal.Layout
import GraphProfile.Decimal.Literal
import Mathlib.Tactic

set_option autoImplicit false

namespace GraphProfile.Decimal

theorem digitsValue_eq (cs : List Char) : digitsValue cs = Nat.ofDigitChars 10 cs 0 := rfl

theorem digitsValue_append (cs ds : List Char) :
    digitsValue (cs ++ ds) = digitsValue cs * 10 ^ ds.length + digitsValue ds := by
  rw [digitsValue_eq, Nat.ofDigitChars_append, Nat.ofDigitChars_eq_ofDigitChars_zero, Nat.mul_comm]
  rfl

theorem digitsValue_digitChars (n : ℕ) : digitsValue (digitChars n) = n := Nat.ofDigitChars_ten_toDigits

theorem digitsValue_zeros (n : ℕ) : digitsValue (zeros n) = 0 := by
  rw [digitsValue_eq, zeros, Nat.ofDigitChars_replicate_zero, Nat.mul_zero]

def AllDigits (cs : List Char) : Prop := ∀ c ∈ cs, c.isDigit

theorem digitChars_ne_nil (n : ℕ) : digitChars n ≠ [] := Nat.toDigits_ne_nil

theorem allDigits_digitChars (n : ℕ) : AllDigits (digitChars n) :=
  fun _ hc => Nat.isDigit_of_mem_toDigits (by norm_num) (by norm_num) hc

theorem allDigits_zeros (n : ℕ) : AllDigits (zeros n) := by
  intro c hc
  rw [List.eq_of_mem_replicate hc]
  rfl

theorem allDigits_append {cs ds : List Char} (hcs : AllDigits cs) (hds : AllDigits ds) : AllDigits (cs ++ ds) :=
  fun c hc => (List.mem_append.1 hc).elim (hcs c) (hds c)

theorem natural?_of_allDigits {cs : List Char} (hne : cs ≠ []) (h : AllDigits cs) :
    natural? cs = some (digitsValue cs) := by
  rw [natural?, if_pos ⟨hne, List.all_eq_true.2 h⟩]

theorem splitSign_of_isDigit {c : Char} (hc : c.isDigit) (cs : List Char) : splitSign (c :: cs) = (false, c :: cs) := by
  rw [splitSign]
  · intro ds he
    cases he
    cases hc
  · intro ds he
    cases he
    cases hc

theorem integer?_of_allDigits {cs : List Char} (hne : cs ≠ []) (h : AllDigits cs) :
    integer? cs = some (digitsValue cs) := by
  cases cs with
  | nil => exact absurd rfl hne
  | cons c cs =>
    rw [integer?, splitSign_of_isDigit (h c List.mem_cons_self), natural?_of_allDigits hne h]
    rfl

theorem integer?_minus {cs : List Char} (hne : cs ≠ []) (h : AllDigits cs) :
    integer? ('-' :: cs) = some (-(digitsValue cs : ℤ)) := by
  rw [integer?, splitSign, natural?_of_allDigits hne h]
  rfl

theorem integer?_plus {cs : List Char} (hne : cs ≠ []) (h : AllDigits cs) :
    integer? ('+' :: cs) = some (digitsValue cs) := by
  rw [integer?, splitSign, natural?_of_allDigits hne h]
  rfl

structure Spelling where
  whole : List Char
  /-- The digits behind the point; without any there is no point. -/
  part : List Char
  /-- The sign and the digits of the power. -/
  power : Option (List Char × List Char)

namespace Spelling

def fractionChars (part : List Char) : List Char := if part = [] then [] else '.' :: part

def powerChars : Option (List Char × List Char) → List Char
  | none => []
  | some p => 'e' :: (p.1 ++ p.2)

def chars (s : Spelling) : List Char := s.whole ++ (fractionChars s.part ++ powerChars s.power)

structure WellFormed (s : Spelling) : Prop where
  whole_ne : s.whole ≠ []
  whole : AllDigits s.whole
  part : AllDigits s.part
  power : ∀ p ∈ s.power, (p.1 = [] ∨ p.1 = ['+'] ∨ p.1 = ['-']) ∧ p.2 ≠ [] ∧ AllDigits p.2

def powerValue : Option (List Char × List Char) → ℤ
  | none => 0
  | some p => if p.1 = ['-'] then -(digitsValue p.2 : ℤ) else digitsValue p.2

def decimal (s : Spelling) : Decimal := ⟨digitsValue (s.whole ++ s.part), powerValue s.power - s.part.length⟩

theorem WellFormed.exists_cons {s : Spelling} (h : s.WellFormed) : ∃ c cs, c.isDigit ∧ s.chars = c :: cs := by
  cases hwhole : s.whole with
  | nil => exact absurd hwhole h.whole_ne
  | cons c whole =>
    refine ⟨c, whole ++ (fractionChars s.part ++ powerChars s.power), ?_, by rw [chars, hwhole, List.cons_append]⟩
    exact h.whole c (hwhole ▸ List.mem_cons_self)

theorem natural?_chars {s : Spelling} (hpoint : s.part ≠ [] ∨ s.power ≠ none) :
    natural? s.chars = none := by
  have hother : ∃ c ∈ s.chars, c.isDigit = false := by
    rcases hpoint with hpart | hpower
    · refine ⟨'.', ?_, rfl⟩
      rw [chars, fractionChars, if_neg hpart]
      simp
    · obtain ⟨p, hp⟩ := Option.ne_none_iff_exists'.1 hpower
      refine ⟨'e', ?_, rfl⟩
      rw [chars, hp, powerChars]
      simp
  obtain ⟨c, hc, hdigit⟩ := hother
  rw [natural?, if_neg]
  intro hall
  have := List.all_eq_true.1 hall.2 c hc
  rw [hdigit] at this
  cases this

/-- Neither the power nor the end goes on with digits. -/
theorem span_powerChars (power : Option (List Char × List Char)) :
    (powerChars power).takeWhile Char.isDigit = [] ∧ (powerChars power).dropWhile Char.isDigit = powerChars power := by
  cases power with
  | none => exact ⟨rfl, rfl⟩
  | some p => exact ⟨rfl, rfl⟩

section
variable {s : Spelling} (h : s.WellFormed)
include h

theorem exponent?_powerChars : exponent? (powerChars s.power) = some (powerValue s.power) := by
  cases hp : s.power with
  | none => rfl
  | some p =>
    obtain ⟨sign, ds⟩ := p
    obtain ⟨hsign, hne, hds⟩ := h.power _ hp
    rw [powerChars, exponent?, if_pos (.inl rfl), powerValue]
    simp only at hsign ⊢
    rcases hsign with rfl | rfl | rfl
    · rw [if_neg (by simp)]
      exact integer?_of_allDigits hne hds
    · rw [if_neg (by decide)]
      exact integer?_plus hne hds
    · rw [if_pos rfl]
      exact integer?_minus hne hds

theorem unsigned?_chars : unsigned? s.chars = some s.decimal := by
  obtain ⟨htake, hdrop⟩ := span_powerChars s.power
  have hpower := exponent?_powerChars h
  have htakeWhole : ∀ rest, rest.takeWhile Char.isDigit = [] → (s.whole ++ rest).takeWhile Char.isDigit = s.whole := by
    intro rest hrest
    rw [List.takeWhile_append_of_pos h.whole, hrest, List.append_nil]
  have hdropWhole : ∀ rest, rest.dropWhile Char.isDigit = rest → (s.whole ++ rest).dropWhile Char.isDigit = rest := by
    intro rest hrest
    rw [List.dropWhile_append_of_pos h.whole, hrest]
  have hread : ∀ part rest, exponent? rest = some (powerValue s.power) →
      (if s.whole = [] ∧ part = [] then none
        else (exponent? rest).map fun e => (⟨digitsValue (s.whole ++ part), e - part.length⟩ : Decimal)) =
      some ⟨digitsValue (s.whole ++ part), powerValue s.power - part.length⟩ := by
    intro part rest hrest
    rw [if_neg fun hnone => h.whole_ne hnone.1, hrest, Option.map_some]
  rw [chars, unsigned?, fractionChars, decimal]
  by_cases hpart : s.part = []
  · rw [if_pos hpart, List.nil_append, htakeWhole _ htake, hdropWhole _ hdrop, hpart]
    generalize s.power = power at *
    cases power with
    | none => exact hread [] [] hpower
    | some p => exact hread [] (powerChars (some p)) hpower
  · rw [if_neg hpart, List.cons_append, htakeWhole _ rfl, hdropWhole _ rfl]
    simp only
    rw [List.takeWhile_append_of_pos h.part, List.dropWhile_append_of_pos h.part, htake, hdrop, List.append_nil]
    exact hread s.part (powerChars s.power) hpower

end

end Spelling

end GraphProfile.Decimal
