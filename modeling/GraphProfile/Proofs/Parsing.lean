import GraphProfile.Proofs.Characters
import GraphProfile.Proofs.Reading

set_option autoImplicit false

namespace GraphProfile.Json
open Decimal

theorem exists_skip (gs : List Glyph) : ∃ bs, AllBlank bs ∧ gs = spelled bs ++ skip gs := by
  induction gs with
  | nil => exact ⟨[], allBlank_nil, rfl⟩
  | cons g gs ih =>
    by_cases hg : isBlank g
    · obtain ⟨bs, hbs, hgs⟩ := ih
      cases g with
      | stray b => exact absurd hg Bool.false_ne_true
      | char c =>
        refine ⟨c :: bs, List.forall_mem_cons.2 ⟨hg, hbs⟩, ?_⟩
        rw [skip, List.dropWhile_cons_of_pos hg, spelled_cons, List.cons_append]
        exact congrArg _ hgs
    · refine ⟨[], allBlank_nil, ?_⟩
      rw [skip, List.dropWhile_cons_of_neg hg]
      rfl

theorem eq_of_after? {cs : List Char} {gs rest : List Glyph} (h : after? cs gs = some rest) :
    gs = spelled cs ++ rest := by
  induction cs generalizing gs with
  | nil => exact Option.some.inj h
  | cons c cs ih =>
    cases gs with
    | nil => cases h
    | cons g gs =>
      cases g with
      | stray b => cases h
      | char d =>
        rw [after?] at h
        split at h
        · rename_i hc
          rw [ih h, hc]
          rfl
        · cases h

theorem eq_of_digit? {g : Glyph} {c : Char} (h : digit? g = some c) : g = .char c ∧ c.isDigit := by
  cases g with
  | stray b => cases h
  | char d =>
    rw [digit?] at h
    split at h
    · rename_i hd
      cases h
      exact ⟨rfl, hd⟩
    · cases h

theorem of_digits {gs rest : List Glyph} {cs : List Char} (h : digits gs = (cs, rest)) :
    gs = spelled cs ++ rest ∧ AllDigits cs := by
  induction gs generalizing cs with
  | nil =>
    cases h
    exact ⟨rfl, fun _ hc => absurd hc List.not_mem_nil⟩
  | cons g gs ih =>
    rw [digits] at h
    split at h
    · rename_i c hc
      cases h
      obtain ⟨hgs, hdigits⟩ := ih rfl
      obtain ⟨rfl, hdigit⟩ := eq_of_digit? hc
      exact ⟨by rw [spelled_cons, List.cons_append, ← hgs], List.forall_mem_cons.2 ⟨hdigit, hdigits⟩⟩
    · cases h
      exact ⟨rfl, fun _ hc => absurd hc List.not_mem_nil⟩

theorem of_digits₁? {gs rest : List Glyph} {cs : List Char} (h : digits₁? gs = some (cs, rest)) :
    gs = spelled cs ++ rest ∧ cs ≠ [] ∧ AllDigits cs := by
  rw [digits₁?] at h
  split at h
  · cases h
  · rename_i hne
    have hdigits := Option.some.inj h
    rw [hdigits] at hne
    obtain ⟨hgs, hall⟩ := of_digits hdigits
    exact ⟨hgs, hne, hall⟩

theorem of_whole? {gs rest : List Glyph} {cs : List Char} (h : whole? gs = some (cs, rest)) :
    gs = spelled cs ++ rest ∧ Whole cs := by
  rw [whole?] at h
  split at h
  · cases h
  · cases h
  · rename_i hne hzero
    have hdigits := Option.some.inj h
    obtain ⟨hgs, hall⟩ := of_digits hdigits
    refine ⟨hgs, ?_, hall, ?_⟩
    · rintro rfl
      exact hne _ hdigits
    · intro hhead
      obtain ⟨ds, rfl⟩ := List.head?_eq_some_iff.1 hhead
      cases ds with
      | nil => rfl
      | cons d ds => exact absurd hdigits (hzero d ds rest)

theorem of_fraction? {gs rest : List Glyph} {cs : List Char} (h : fraction? gs = some (cs, rest)) :
    gs = spelled cs ++ rest ∧ Fraction cs := by
  rw [fraction?.eq_def] at h
  split at h
  · obtain ⟨⟨ds, more⟩, hdigits, hfound⟩ := Option.map_eq_some_iff.1 h
    cases hfound
    obtain ⟨rfl, hne, hall⟩ := of_digits₁? hdigits
    exact ⟨rfl, .point hne hall⟩
  · cases h
    exact ⟨rfl, .missing⟩

theorem of_exponentSign (gs : List Glyph) : gs = spelled (exponentSign gs).1 ++ (exponentSign gs).2 ∧
    ((exponentSign gs).1 = [] ∨ (exponentSign gs).1 = ['+'] ∨ (exponentSign gs).1 = ['-']) := by
  rw [exponentSign.eq_def]
  split
  · exact ⟨rfl, .inr (.inl rfl)⟩
  · exact ⟨rfl, .inr (.inr rfl)⟩
  · exact ⟨rfl, .inl rfl⟩

theorem of_power? {gs rest : List Glyph} {cs : List Char} (h : power? gs = some (cs, rest)) :
    gs = spelled cs ++ rest ∧ Power cs := by
  have hmarked {mark : Char} (hmark : mark = 'e' ∨ mark = 'E') {more : List Glyph}
      (hfound : (digits₁? (exponentSign more).2).map (fun found =>
        (mark :: ((exponentSign more).1 ++ found.1), found.2)) = some (cs, rest)) :
      .char mark :: more = spelled cs ++ rest ∧ Power cs := by
    obtain ⟨hmore, hsign⟩ := of_exponentSign more
    obtain ⟨⟨ds, after⟩, hdigits, hfound⟩ := Option.map_eq_some_iff.1 hfound
    cases hfound
    obtain ⟨hafter, hne, hall⟩ := of_digits₁? hdigits
    refine ⟨?_, .mark hmark hsign hne hall⟩
    rw [spelled_cons, spelled_append, List.cons_append, List.append_assoc, ← hafter, ← hmore]
  rw [power?.eq_def] at h
  split at h
  · exact hmarked (.inl rfl) h
  · exact hmarked (.inr rfl) h
  · cases h
    exact ⟨rfl, .missing⟩

theorem of_minus (gs : List Glyph) :
    ∃ negative : Bool, (minus gs).1 = (if negative then ['-'] else []) ∧ gs = spelled (minus gs).1 ++ (minus gs).2 := by
  rw [minus.eq_def]
  split
  · exact ⟨true, rfl, rfl⟩
  · exact ⟨false, rfl, rfl⟩

theorem of_number? {gs rest : List Glyph} {s : String} (h : number? gs = some (s, rest)) :
    gs = spelled s.toList ++ rest ∧ Numeral s := by
  rw [number?] at h
  obtain ⟨⟨whole, gs₁⟩, hwhole, h⟩ := Option.bind_eq_some_iff.1 h
  obtain ⟨⟨fraction, gs₂⟩, hfraction, h⟩ := Option.bind_eq_some_iff.1 h
  obtain ⟨⟨power, gs₃⟩, hpower, h⟩ := Option.bind_eq_some_iff.1 h
  cases h
  obtain ⟨negative, hminus, hgs⟩ := of_minus gs
  obtain ⟨hwholeText, hwholeDigits⟩ := of_whole? hwhole
  obtain ⟨rfl, hfractionChars⟩ := of_fraction? hfraction
  obtain ⟨rfl, hpowerChars⟩ := of_power? hpower
  constructor
  · simp only [String.toList_ofList, spelled_append, List.append_assoc]
    rw [← hwholeText, ← hgs]
  · rw [hminus]
    exact numeral_of_parts hwholeDigits hfractionChars hpowerChars negative

theorem pieces?_escaped {e c : Char} (h : unescape? e = some c) (gs : List Glyph) (acc : List Piece) :
    pieces? (.char '\\' :: .char e :: gs) acc = pieces? gs (.char c :: acc) := by
  have hunicode : e ≠ 'u' := by
    rintro rfl
    cases h
  rw [pieces?, h]
  intro _ _ _ _ _ _ he
  exact absurd he hunicode

/-- What the scanner of strings takes does not depend on what follows it. -/
theorem of_pieces? {gs rest : List Glyph} {acc ps : List Piece} (h : pieces? gs acc = some (ps, rest)) :
    ∃ t, gs = t ++ rest ∧ ∀ more, pieces? (t ++ more) acc = some (ps, more) := by
  fun_induction pieces? gs acc with
  | case1 | case4 | case6 | case7 | case8 => cases h
  | case2 gs acc =>
    cases h
    exact ⟨[.char '"'], rfl, fun _ => rfl⟩
  | case3 a b c d gs acc u hu ih =>
    obtain ⟨t, rfl, ht⟩ := ih h
    refine ⟨.char '\\' :: .char 'u' :: a :: b :: c :: d :: t, rfl, fun more => ?_⟩
    simp only [List.cons_append]
    rw [pieces?, hu]
    exact ht more
  | case5 e gs acc _ c hc ih =>
    obtain ⟨t, rfl, ht⟩ := ih h
    refine ⟨.char '\\' :: .char e :: t, rfl, fun more => ?_⟩
    rw [List.cons_append, List.cons_append, pieces?_escaped hc]
    exact ht more
  | case9 c gs acc hquote _ _ hbackslash hcontrol ih =>
    obtain ⟨t, rfl, ht⟩ := ih h
    refine ⟨.char c :: t, rfl, fun more => ?_⟩
    rw [List.cons_append, pieces?_char hquote hbackslash hcontrol]
    exact ht more
  | case10 b gs acc ih =>
    obtain ⟨t, rfl, ht⟩ := ih h
    exact ⟨.stray b :: t, rfl, ht⟩

theorem of_string? {gs rest : List Glyph} {content : Option String} (h : string? gs = some (content, rest)) :
    ∃ t, gs = t ++ rest ∧ Quoted content t := by
  obtain ⟨⟨ps, more⟩, hpieces, hfound⟩ := Option.map_eq_some_iff.1 h
  cases hfound
  obtain ⟨t, rfl, ht⟩ := of_pieces? hpieces
  refine ⟨t, rfl, fun after => ?_⟩
  rw [string?, ht after]
  rfl

/-- With so many steps the reader takes texts only. -/
structure Sound (n : ℕ) : Prop where
  value : ∀ {gs j rest}, value? n gs = some (j, rest) → ∃ t, gs = t ++ rest ∧ TextOf j t
  items : ∀ {gs acc j rest}, items? n gs acc = some (j, rest) →
    ∃ values t, j = .array (acc.reverse ++ values) ∧ gs = t ++ rest ∧ ItemsText values t
  fields : ∀ {gs acc j rest}, fields? n gs acc = some (j, rest) →
    ∃ entries t, j = .object (acc.reverse ++ entries) ∧ gs = t ++ rest ∧ FieldsText entries t

namespace Sound

theorem zero : Sound 0 := ⟨fun h => (nomatch h), fun h => (nomatch h), fun h => (nomatch h)⟩

variable {n : ℕ} (h : Sound n) {gs rest : List Glyph} {j : Json}
include h

theorem item (hvalue : value? n (skip gs) = some (j, rest)) :
    ∃ x : Item, x.value = j ∧ x.Blank ∧ TextOf x.value x.text ∧ gs = x.padded ++ skip rest := by
  obtain ⟨front, hfront, hgs⟩ := exists_skip gs
  obtain ⟨back, hback, hrest⟩ := exists_skip rest
  obtain ⟨t, hskip, ht⟩ := h.value hvalue
  refine ⟨⟨front, j, t, back⟩, rfl, ⟨hfront, hback⟩, ht, ?_⟩
  rw [Item.padded, List.append_assoc, List.append_assoc, ← hrest, ← hskip, ← hgs]

theorem items_succ {acc : List Json} (hitems : items? (n + 1) gs acc = some (j, rest)) :
    ∃ values t, j = .array (acc.reverse ++ values) ∧ gs = t ++ rest ∧ ItemsText values t := by
  rw [items?] at hitems
  split at hitems
  · cases hitems
  · rename_i v gs₁ hvalue
    obtain ⟨x, rfl, hblank, htext, rfl⟩ := h.item hvalue
    split at hitems
    · rename_i gs₂ hskip
      obtain ⟨values, t, rfl, rfl, ht⟩ := h.items hitems
      refine ⟨_, _, ?_, ?_, .cons ⟨hblank, htext⟩ ht⟩
      · rw [List.reverse_cons, List.append_assoc, List.singleton_append]
      · rw [hskip, List.append_assoc, List.cons_append]
    · rename_i gs₂ hskip
      cases hitems
      refine ⟨_, _, by rw [List.reverse_cons], ?_, .last ⟨hblank, htext⟩⟩
      rw [hskip, List.append_assoc, List.singleton_append]
    · cases hitems

theorem fields_succ {acc : List (Option String × Json)} (hfields : fields? (n + 1) gs acc = some (j, rest)) :
    ∃ entries t, j = .object (acc.reverse ++ entries) ∧ gs = t ++ rest ∧ FieldsText entries t := by
  obtain ⟨front, hfront, hgs⟩ := exists_skip gs
  rw [fields?] at hfields
  split at hfields
  · rename_i gs₁ hquote
    split at hfields
    · cases hfields
    · rename_i name gs₂ hstring
      obtain ⟨quoted, rfl, hquoted⟩ := of_string? hstring
      obtain ⟨back, hback, hgs₂⟩ := exists_skip gs₂
      split at hfields
      · rename_i gs₃ hcolon
        split at hfields
        · cases hfields
        · rename_i v gs₄ hvalue
          obtain ⟨x, rfl, hblank, htext, rfl⟩ := h.item hvalue
          have hplain : Field.Plain ⟨front, name, quoted, back, x⟩ := ⟨hfront, hquoted, hback, hblank⟩
          have hpadded : gs = Field.padded ⟨front, name, quoted, back, x⟩ ++ skip gs₄ := by
            rw [hgs, hquote, hgs₂, hcolon, Field.padded]
            simp only [List.append_assoc, List.cons_append]
          split at hfields
          · rename_i gs₅ hskip
            obtain ⟨entries, t, rfl, rfl, ht⟩ := h.fields hfields
            refine ⟨_, _, ?_, ?_, .cons ⟨hplain, htext⟩ ht⟩
            · rw [List.reverse_cons, List.append_assoc]
              rfl
            · rw [hpadded, hskip, List.append_assoc, List.cons_append]
          · rename_i gs₅ hskip
            cases hfields
            refine ⟨_, _, by rw [List.reverse_cons]; rfl, ?_, .last ⟨hplain, htext⟩⟩
            rw [hpadded, hskip, List.append_assoc, List.singleton_append]
          · cases hfields
      · cases hfields
  · cases hfields

theorem value_succ (hvalue : value? (n + 1) gs = some (j, rest)) :
    ∃ t, gs = t ++ rest ∧ TextOf j t := by
  unfold value? at hvalue
  split at hvalue
  · obtain ⟨⟨content, more⟩, hstring, hfound⟩ := Option.map_eq_some_iff.1 hvalue
    cases hfound
    obtain ⟨t, rfl, ht⟩ := of_string? hstring
    exact ⟨.char '"' :: t, rfl, .string ht⟩
  · rename_i gs₁
    obtain ⟨bs, hbs, hgs₁⟩ := exists_skip gs₁
    split at hvalue
    · rename_i gs₂ hskip
      cases hvalue
      refine ⟨_, ?_, .noItems hbs⟩
      rw [hgs₁, hskip, List.cons_append, List.append_assoc]
      rfl
    · rw [items?_skip] at hvalue
      obtain ⟨values, t, rfl, rfl, ht⟩ := h.items hvalue
      exact ⟨.char '[' :: t, rfl, ht.array⟩
  · rename_i gs₁
    obtain ⟨bs, hbs, hgs₁⟩ := exists_skip gs₁
    split at hvalue
    · rename_i gs₂ hskip
      cases hvalue
      refine ⟨_, ?_, .noFields hbs⟩
      rw [hgs₁, hskip, List.cons_append, List.append_assoc]
      rfl
    · rw [fields?_skip] at hvalue
      obtain ⟨entries, t, rfl, rfl, ht⟩ := h.fields hvalue
      exact ⟨.char '\x7b' :: t, rfl, ht.object⟩
  · obtain ⟨more, hafter, hfound⟩ := Option.map_eq_some_iff.1 hvalue
    cases hfound
    rw [eq_of_after? hafter]
    exact ⟨_, rfl, .null⟩
  · obtain ⟨more, hafter, hfound⟩ := Option.map_eq_some_iff.1 hvalue
    cases hfound
    rw [eq_of_after? hafter]
    exact ⟨_, rfl, .true⟩
  · obtain ⟨more, hafter, hfound⟩ := Option.map_eq_some_iff.1 hvalue
    cases hfound
    rw [eq_of_after? hafter]
    exact ⟨_, rfl, .false⟩
  · obtain ⟨⟨s, more⟩, hnumber, hfound⟩ := Option.map_eq_some_iff.1 hvalue
    cases hfound
    obtain ⟨hgs, hs⟩ := of_number? hnumber
    exact ⟨_, hgs, .number hs⟩

theorem succ : Sound (n + 1) := ⟨h.value_succ, h.items_succ, h.fields_succ⟩

end Sound

theorem sound (n : ℕ) : Sound n := by
  induction n with
  | zero => exact .zero
  | succ n ih => exact ih.succ

/-- The bytes are a text of the value, with blanks around it. -/
def HasText (j : Json) (bytes : ByteArray) : Prop :=
  ∃ x : Item, x.value = j ∧ x.Blank ∧ TextOf j x.text ∧ Glyph.ofBytes bytes = x.padded

theorem parse?_eq_some_iff {bytes : ByteArray} {j : Json} : parse? bytes = some j ↔ j.HasText bytes := by
  constructor
  · intro h
    rw [parse?, ofGlyphs?] at h
    split at h
    · rename_i v rest hvalue
      split at h
      · rename_i hrest
        cases h
        obtain ⟨x, rfl, hblank, htext, hbytes⟩ := (sound _).item hvalue
        exact ⟨x, rfl, hblank, htext, by rw [hbytes, hrest, List.append_nil]⟩
      · cases h
    · cases h
  · rintro ⟨x, rfl, hblank, htext, hbytes⟩
    rw [parse?, hbytes]
    exact ofGlyphs?_padded hblank htext

theorem TextOf.printable {j : Json} {gs : List Glyph} (h : TextOf j gs) : j.Printable := by
  induction h with
  | null => exact .null
  | true | false => exact .bool _
  | number h => exact .number h
  | string _ => exact .string _
  | noItems _ => exact .array fun _ hx => absurd hx List.not_mem_nil
  | items _ _ ih =>
    refine .array fun v hv => ?_
    obtain ⟨x, hx, rfl⟩ := List.mem_map.1 hv
    exact ih x hx
  | noFields _ => exact .object fun _ hf => absurd hf List.not_mem_nil
  | fields _ _ ih =>
    refine .object fun v hv => ?_
    obtain ⟨f, hf, rfl⟩ := List.mem_map.1 hv
    exact ih f hf

theorem Printable.hasText_pretty {j : Json} (h : j.Printable) : j.HasText (pretty j).toUTF8 := by
  refine ⟨⟨[], j, spelled (chars prettyForm 0 j), []⟩, rfl, ⟨allBlank_nil, allBlank_nil⟩,
    h.textOf_chars blank_prettyForm 0, ?_⟩
  rw [Glyph.ofBytes_toUTF8, pretty, String.toList_ofList]
  exact (List.append_nil _).symm

theorem printable_iff {j : Json} : j.Printable ↔ ∃ bytes, j.HasText bytes := by
  constructor
  · exact fun h => ⟨_, h.hasText_pretty⟩
  · rintro ⟨_, _, _, _, htext, _⟩
    exact htext.printable

end GraphProfile.Json
