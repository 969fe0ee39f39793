import GraphProfile.Json.Parser
import GraphProfile.Json.Printer
import GraphProfile.Proofs.Layouts

set_option autoImplicit false

namespace GraphProfile.Json
open Decimal

def spelled (cs : List Char) : List Glyph := cs.map .char

theorem spelled_nil : spelled [] = [] := rfl

theorem spelled_cons (c : Char) (cs : List Char) : spelled (c :: cs) = .char c :: spelled cs := rfl

theorem spelled_append (cs ds : List Char) : spelled (cs ++ ds) = spelled cs ++ spelled ds := List.map_append

def EndsNumber (gs : List Glyph) : Prop :=
  ∀ c rest, gs = .char c :: rest → c.isDigit = false ∧ c ≠ '.' ∧ c ≠ 'e' ∧ c ≠ 'E'

theorem endsNumber_cons {c : Char} (hdigit : c.isDigit = false) (hpoint : c ≠ '.') (hlower : c ≠ 'e') (hupper : c ≠ 'E')
    (gs : List Glyph) : EndsNumber (.char c :: gs) := by
  intro d rest h
  cases h
  exact ⟨hdigit, hpoint, hlower, hupper⟩

theorem digits_spelled {cs : List Char} (h : AllDigits cs) {gs : List Glyph}
    (hgs : ∀ c rest, gs = .char c :: rest → c.isDigit = false) : digits (spelled cs ++ gs) = (cs, gs) := by
  induction cs with
  | nil =>
    change digits gs = _
    cases gs with
    | nil => rfl
    | cons g gs =>
      have hnone : digit? g = none := by
        cases g with
        | stray b => rfl
        | char c => rw [digit?, hgs c gs rfl, if_neg Bool.false_ne_true]
      rw [digits, hnone]
  | cons c cs ih =>
    have hdigit : digit? (.char c) = some c := by rw [digit?, if_pos (h c List.mem_cons_self)]
    rw [spelled_cons, List.cons_append, digits, hdigit, ih fun d hd => h d (List.mem_cons_of_mem c hd)]

theorem digits₁?_spelled {cs : List Char} (hne : cs ≠ []) (h : AllDigits cs) {gs : List Glyph}
    (hgs : ∀ c rest, gs = .char c :: rest → c.isDigit = false) : digits₁? (spelled cs ++ gs) = some (cs, gs) := by
  rw [digits₁?, digits_spelled h hgs, if_neg hne]

/-- The digits that a number may begin with: more than one only if the first is no zero. -/
structure Whole (cs : List Char) : Prop where
  ne_nil : cs ≠ []
  digits : AllDigits cs
  zero : cs.head? = some '0' → cs = ['0']

inductive Fraction : List Char → Prop where
  | missing : Fraction []
  | point {ds : List Char} (hne : ds ≠ []) (hds : AllDigits ds) : Fraction ('.' :: ds)

inductive Power : List Char → Prop where
  | missing : Power []
  | mark {mark : Char} {sign ds : List Char} (hmark : mark = 'e' ∨ mark = 'E')
      (hsign : sign = [] ∨ sign = ['+'] ∨ sign = ['-']) (hne : ds ≠ []) (hds : AllDigits ds) :
      Power (mark :: (sign ++ ds))

theorem whole?_spelled {cs : List Char} (h : Whole cs) {gs : List Glyph}
    (hgs : ∀ c rest, gs = .char c :: rest → c.isDigit = false) : whole? (spelled cs ++ gs) = some (cs, gs) := by
  rw [whole?, digits_spelled h.digits hgs]
  have hne := h.ne_nil
  have hzero := h.zero
  split
  · rename_i heq
    cases heq
    exact absurd rfl hne
  · rename_i heq
    cases heq
    cases hzero rfl
  · rfl

theorem fraction?_spelled {cs : List Char} (h : Fraction cs) {gs : List Glyph}
    (hgs : ∀ c rest, gs = .char c :: rest → c.isDigit = false ∧ c ≠ '.') :
    fraction? (spelled cs ++ gs) = some (cs, gs) := by
  cases h with
  | missing =>
    change fraction? gs = some ([], gs)
    rw [fraction?]
    rintro more rfl
    exact (hgs _ _ rfl).2 rfl
  | point hne hds =>
    rw [spelled_cons, List.cons_append, fraction?, digits₁?_spelled hne hds fun c rest hc => (hgs c rest hc).1]
    rfl

theorem exponentSign_spelled {sign ds : List Char} (hsign : sign = [] ∨ sign = ['+'] ∨ sign = ['-']) (hne : ds ≠ [])
    (hds : AllDigits ds) (gs : List Glyph) : exponentSign (spelled (sign ++ ds) ++ gs) = (sign, spelled ds ++ gs) := by
  rcases hsign with rfl | rfl | rfl
  · cases ds with
    | nil => exact absurd rfl hne
    | cons d ds =>
      have hd := hds d List.mem_cons_self
      rw [List.nil_append, spelled_cons, List.cons_append, exponentSign]
      · intro gs he
        cases he
        cases hd
      · intro gs he
        cases he
        cases hd
  · rfl
  · rfl

section
variable {rest : List Glyph} (hrest : EndsNumber rest)
include hrest

theorem power?_spelled {cs : List Char} (h : Power cs) : power? (spelled cs ++ rest) = some (cs, rest) := by
  cases h with
  | missing =>
    change power? rest = some ([], rest)
    rw [power?]
    · rintro gs rfl
      exact (hrest _ _ rfl).2.2.1 rfl
    · rintro gs rfl
      exact (hrest _ _ rfl).2.2.2 rfl
  | mark hmark hsign hne hds =>
    have hdigits := digits₁?_spelled hne hds fun c gs hc => (hrest c gs hc).1
    rcases hmark with rfl | rfl
    all_goals
      rw [spelled_cons, List.cons_append, power?, exponentSign_spelled hsign hne hds]
      simp only
      rw [hdigits]
      rfl

theorem head_power {power : List Char} (h : Power power) :
    ∀ c gs, spelled power ++ rest = .char c :: gs → c.isDigit = false ∧ c ≠ '.' := by
  intro c gs hc
  cases h with
  | missing => exact ⟨(hrest c gs hc).1, (hrest c gs hc).2.1⟩
  | mark hmark _ _ _ =>
    rcases hmark with rfl | rfl
    all_goals
      cases hc
      exact ⟨rfl, by decide⟩

theorem head_fraction {fraction power : List Char} (hfraction : Fraction fraction) (hpower : Power power) :
    ∀ c gs, spelled fraction ++ (spelled power ++ rest) = .char c :: gs → c.isDigit = false := by
  intro c gs hc
  cases hfraction with
  | missing => exact (head_power hrest hpower c gs hc).1
  | point _ _ =>
    cases hc
    rfl

theorem number?_spelled {whole fraction power : List Char} (hwhole : Whole whole) (hfraction : Fraction fraction)
    (hpower : Power power) (negative : Bool) :
    number? (spelled ((if negative then ['-'] else []) ++ whole ++ fraction ++ power) ++ rest) =
      some (String.ofList ((if negative then ['-'] else []) ++ whole ++ fraction ++ power), rest) := by
  have hminus (gs : List Glyph) : minus (spelled ((if negative then ['-'] else []) ++ whole) ++ gs) =
      (if negative then ['-'] else [], spelled whole ++ gs) := by
    cases negative with
    | true => rfl
    | false =>
      obtain ⟨c, cs, rfl⟩ := List.exists_cons_of_ne_nil hwhole.ne_nil
      have hc := hwhole.digits c List.mem_cons_self
      rw [if_neg Bool.false_ne_true, List.nil_append, spelled_cons, List.cons_append, minus]
      intro gs he
      cases he
      cases hc
  rw [spelled_append, spelled_append, List.append_assoc, List.append_assoc, number?, hminus]
  simp only [whole?_spelled hwhole (head_fraction hrest hfraction hpower),
    fraction?_spelled hfraction (head_power hrest hpower), power?_spelled hrest hpower, Option.bind_eq_bind,
    Option.bind_some]
  rfl

end

/-- A text that the reader takes for a number, whatever comes after it. -/
structure Numeral (s : String) : Prop where
  scanned : ∀ {rest}, EndsNumber rest → number? (spelled s.toList ++ rest) = some (s, rest)
  starts : ∃ c cs, s.toList = c :: cs ∧ (c.isDigit ∨ c = '-')

theorem numeral_of_parts {whole fraction power : List Char} (hwhole : Whole whole) (hfraction : Fraction fraction)
    (hpower : Power power) (negative : Bool) :
    Numeral (String.ofList ((if negative then ['-'] else []) ++ whole ++ fraction ++ power)) := by
  constructor
  · intro rest hrest
    rw [String.toList_ofList]
    exact number?_spelled hrest hwhole hfraction hpower negative
  · rw [String.toList_ofList]
    obtain ⟨c, cs, rfl⟩ := List.exists_cons_of_ne_nil hwhole.ne_nil
    cases negative with
    | true => exact ⟨'-', _, rfl, .inr rfl⟩
    | false => exact ⟨c, _, rfl, .inl (hwhole.digits c List.mem_cons_self)⟩

theorem numeral_of_spelling {s : Spelling} (h : s.WellFormed) (hzero : s.whole.head? = some '0' → s.whole = ['0'])
    (negative : Bool) : Numeral (String.ofList ((if negative then ['-'] else []) ++ s.chars)) := by
  have hfraction : Fraction (Spelling.fractionChars s.part) := by
    rw [Spelling.fractionChars]
    split
    · exact .missing
    · rename_i hne
      exact .point hne h.part
  have hpower : Power (Spelling.powerChars s.power) := by
    cases hp : s.power with
    | none => exact .missing
    | some p =>
      obtain ⟨hsign, hne, hds⟩ := h.power p hp
      exact .mark (.inl rfl) hsign hne hds
  have hparts := numeral_of_parts ⟨h.whole_ne, h.whole, hzero⟩ hfraction hpower negative
  rwa [List.append_assoc, List.append_assoc] at hparts

theorem numeral_float {x : Float} (hfinite : x.isFinite) : Numeral (floatLayout.text x) := by
  have h := numeral_of_spelling (Layout.wellFormed_spell floatLayout (floatLayout.decimalOf x))
    (Layout.whole_spell floatLayout _ (Layout.digits_decimalOf floatLayout hfinite)) (isNegative x)
  rwa [← Layout.chars_of_finite floatLayout hfinite] at h

theorem numeral_digits (n : ℕ) (negative : Bool) :
    Numeral (String.ofList ((if negative then ['-'] else []) ++ digitChars n)) := by
  have hwell : Spelling.WellFormed ⟨digitChars n, [], none⟩ :=
    ⟨digitChars_ne_nil n, allDigits_digitChars n, fun _ hc => absurd hc List.not_mem_nil, by simp⟩
  have hzero : (digitChars n).head? = some '0' → digitChars n = ['0'] := by
    intro hhead
    obtain rfl : n = 0 := by_contra fun hn => Layout.head?_digitChars hn hhead
    rfl
  have h := numeral_of_spelling hwell hzero negative
  rwa [Spelling.chars, Spelling.fractionChars, if_pos rfl, Spelling.powerChars, List.append_nil, List.append_nil] at h

theorem numeral_nat (n : ℕ) : Numeral (toString n) := numeral_digits n false

theorem numeral_int (n : ℤ) : Numeral (toString n) := by
  cases n with
  | ofNat n => exact numeral_digits n false
  | negSucc n =>
    have h := numeral_digits (n + 1) true
    rwa [if_pos rfl, String.ofList_append] at h

theorem hexValue?_hexDigit {n : ℕ} (hn : n < 16) : hexValue? (.char (hexDigit n)) = some n := by
  interval_cases n <;> decide

theorem pieceOfUnit_of_control {c : Char} (hc : c.toNat < 32) : pieceOfUnit c.toNat = .char c := by
  rw [pieceOfUnit, if_neg (by omega), Char.ofNat_toNat]

theorem pieces?_char {c : Char} (hquote : c ≠ '"') (hbackslash : c ≠ '\\') (hcontrol : ¬ c.toNat < 32)
    (gs : List Glyph) (acc : List Piece) : pieces? (.char c :: gs) acc = pieces? gs (.char c :: acc) := by
  rw [pieces?, if_neg hcontrol]
  · exact hquote
  · exact fun _ _ _ _ _ _ hc => hbackslash hc
  · exact fun _ _ _ hc => hbackslash hc
  · exact hbackslash

theorem pieces?_escape (c : Char) (gs : List Glyph) (acc : List Piece) :
    pieces? (spelled (escape c) ++ gs) acc = pieces? gs (.char c :: acc) := by
  unfold escape
  split
  · rfl
  · rfl
  · rfl
  · rfl
  · rfl
  · rfl
  · rfl
  · split
    · rename_i hcontrol
      have hunit : unit? (.char '0') (.char '0') (.char (hexDigit (c.toNat / 16))) (.char (hexDigit (c.toNat % 16))) =
          some c.toNat := by
        have hzero : hexValue? (.char '0') = some 0 := rfl
        rw [unit?, hzero, hexValue?_hexDigit (by omega), hexValue?_hexDigit (by omega)]
        change some (0 * 4096 + 0 * 256 + c.toNat / 16 * 16 + c.toNat % 16) = _
        congr 1
        omega
      change pieces? (.char '\\' :: .char 'u' :: .char '0' :: .char '0' :: .char (hexDigit (c.toNat / 16)) ::
        .char (hexDigit (c.toNat % 16)) :: gs) acc = _
      rw [pieces?, hunit]
      simp only
      rw [pieceOfUnit_of_control hcontrol]
    · rename_i hquote hbackslash _ _ _ _ _ hcontrol
      exact pieces?_char hquote hbackslash hcontrol gs acc

theorem pieces?_text (cs : List Char) (gs : List Glyph) (acc : List Piece) :
    pieces? (spelled (cs.flatMap escape) ++ .char '"' :: gs) acc = some (acc.reverse ++ cs.map .char, gs) := by
  induction cs generalizing acc with
  | nil => rw [List.map_nil, List.append_nil]; rfl
  | cons c cs ih =>
    rw [List.flatMap_cons, spelled_append, List.append_assoc, pieces?_escape, ih, List.reverse_cons, List.append_assoc]
    rfl

theorem content?_text (cs acc : List Char) : content? (cs.map .char) acc = some (acc.reverse ++ cs) := by
  induction cs generalizing acc with
  | nil => rw [List.append_nil]; rfl
  | cons c cs ih =>
    rw [List.map_cons, content?, ih, List.reverse_cons, List.append_assoc]
    rfl

theorem string?_text (s : String) (gs : List Glyph) :
    string? (spelled (s.toList.flatMap escape ++ ['"']) ++ gs) = some (some s, gs) := by
  rw [spelled_append, List.append_assoc, string?]
  change (pieces? (_ ++ .char '"' :: gs) []).map _ = _
  rw [pieces?_text, Option.map_some, List.reverse_nil, List.nil_append, content?_text, Option.map_some,
    List.reverse_nil, List.nil_append, String.ofList_toList]

end GraphProfile.Json
