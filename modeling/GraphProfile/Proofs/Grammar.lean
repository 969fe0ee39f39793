import GraphProfile.Proofs.Scanning

set_option autoImplicit false

/-!
# The texts of a tree

Which texts a value has is said here without the reader's loops: a value has blanks around it wherever it stands, items
and fields have commas between them. The reader takes every such text from the front of the glyphs and gives the value.
The steps that it is allowed are counted by the glyphs, of which every level of the tree takes some for itself.
-/
namespace GraphProfile.Json

def AllBlank (cs : List Char) : Prop := ∀ c ∈ cs, isBlank (.char c)

theorem allBlank_nil : AllBlank [] := fun _ hc => absurd hc List.not_mem_nil

theorem eq_of_isBlank {c : Char} (h : isBlank (.char c)) : c = ' ' ∨ c = '\n' ∨ c = '\t' ∨ c = '\r' := by
  simpa only [isBlank, Bool.or_eq_true, beq_iff_eq, or_assoc] using h

theorem AllBlank.spelled {bs : List Char} (h : AllBlank bs) : ∀ g ∈ spelled bs, isBlank g := by
  intro g hg
  obtain ⟨b, hb, rfl⟩ := List.mem_map.1 hg
  exact h b hb

theorem skip_mark {c : Char} (hc : isBlank (.char c) = false) (gs : List Glyph) :
    skip (.char c :: gs) = .char c :: gs := by
  rw [skip, List.dropWhile_cons_of_neg (by rw [hc]; exact Bool.false_ne_true)]

theorem skip_append {bs : List Char} (h : AllBlank bs) (gs : List Glyph) : skip (spelled bs ++ gs) = skip gs :=
  List.dropWhile_append_of_pos h.spelled

theorem skip_blanks {bs : List Char} (h : AllBlank bs) {c : Char} (hc : isBlank (.char c) = false)
    (gs : List Glyph) : skip (spelled bs ++ .char c :: gs) = .char c :: gs := by
  rw [skip_append h, skip_mark hc]

theorem skip_skip (gs : List Glyph) : skip (skip gs) = skip gs := List.dropWhile_idempotent _ _

theorem EndsNumber.blanks {bs : List Char} (hbs : AllBlank bs) {gs : List Glyph} (hgs : EndsNumber gs) :
    EndsNumber (spelled bs ++ gs) := by
  cases bs with
  | nil => exact hgs
  | cons b bs =>
    have hb := eq_of_isBlank (hbs b List.mem_cons_self)
    rcases hb with rfl | rfl | rfl | rfl <;> exact endsNumber_cons rfl (by decide) (by decide) (by decide) _

theorem endsNumber_nil : EndsNumber [] := fun _ _ h => absurd h (List.cons_ne_nil _ _).symm

theorem endsNumber_comma (gs : List Glyph) : EndsNumber (.char ',' :: gs) :=
  endsNumber_cons rfl (by decide) (by decide) (by decide) gs

/-- What stands behind the opening quote of a string, through the closing one. -/
def Quoted (content : Option String) (gs : List Glyph) : Prop := ∀ rest, string? (gs ++ rest) = some (content, rest)

/-- A value where it stands: its text, and the blanks around it. -/
structure Item where
  front : List Char
  value : Json
  text : List Glyph
  back : List Char

/-- A field where it stands. The text of its name lacks the opening quote. -/
structure Field where
  front : List Char
  name : Option String
  quoted : List Glyph
  back : List Char
  item : Item

namespace Item

def padded (x : Item) : List Glyph := spelled x.front ++ (x.text ++ spelled x.back)

structure Blank (x : Item) : Prop where
  front : AllBlank x.front
  back : AllBlank x.back

end Item

namespace Field

def padded (f : Field) : List Glyph :=
  spelled f.front ++ .char '"' :: (f.quoted ++ (spelled f.back ++ .char ':' :: f.item.padded))

def entry (f : Field) : Option String × Json := (f.name, f.item.value)

structure Plain (f : Field) : Prop where
  front : AllBlank f.front
  quoted : Quoted f.name f.quoted
  back : AllBlank f.back
  item : f.item.Blank

end Field

/-- The rest of a list behind its first part, with a comma in front of every other one. -/
def others (parts : List (List Glyph)) : List Glyph := parts.flatMap fun gs => .char ',' :: gs

theorem others_cons (gs : List Glyph) (parts : List (List Glyph)) :
    others (gs :: parts) = .char ',' :: (gs ++ others parts) := List.flatMap_cons

inductive TextOf : Json → List Glyph → Prop where
  | null : TextOf .null (spelled ['n', 'u', 'l', 'l'])
  | true : TextOf (.bool true) (spelled ['t', 'r', 'u', 'e'])
  | false : TextOf (.bool false) (spelled ['f', 'a', 'l', 's', 'e'])
  | number {s : String} (h : Numeral s) : TextOf (.number s) (spelled s.toList)
  | string {content : Option String} {gs : List Glyph} (h : Quoted content gs) :
      TextOf (.string content) (.char '"' :: gs)
  | noItems {bs : List Char} (h : AllBlank bs) : TextOf (.array []) (.char '[' :: (spelled bs ++ [.char ']']))
  | items {x : Item} {xs : List Item} (hblank : ∀ y ∈ x :: xs, y.Blank) (h : ∀ y ∈ x :: xs, TextOf y.value y.text) :
      TextOf (.array ((x :: xs).map Item.value))
        (.char '[' :: (x.padded ++ (others (xs.map Item.padded) ++ [.char ']'])))
  | noFields {bs : List Char} (h : AllBlank bs) :
      TextOf (.object []) (.char '\x7b' :: (spelled bs ++ [.char '\x7d']))
  | fields {f : Field} {fs : List Field} (hplain : ∀ g ∈ f :: fs, g.Plain)
      (h : ∀ g ∈ f :: fs, TextOf g.item.value g.item.text) :
      TextOf (.object ((f :: fs).map Field.entry))
        (.char '\x7b' :: (f.padded ++ (others (fs.map Field.padded) ++ [.char '\x7d'])))

/-- The glyphs from one part of a list on, through the closing mark. -/
def ListText {σ ν : Type} (WellPut : σ → Prop) (padded : σ → List Glyph) (value : σ → ν) (close : Char)
    (values : List ν) (gs : List Glyph) : Prop :=
  ∃ (p : σ) (ps : List σ), (p :: ps).map value = values ∧ (∀ q ∈ p :: ps, WellPut q) ∧
    padded p ++ (others (ps.map padded) ++ [.char close]) = gs

namespace ListText

variable {σ ν : Type} {WellPut : σ → Prop} {padded : σ → List Glyph} {value : σ → ν} {close : Char} {p : σ}
  (hp : WellPut p)
include hp

theorem last : ListText WellPut padded value close [value p] (padded p ++ [.char close]) :=
  ⟨p, [], rfl, List.forall_mem_singleton.2 hp, rfl⟩

theorem cons {values : List ν} {gs : List Glyph} (h : ListText WellPut padded value close values gs) :
    ListText WellPut padded value close (value p :: values) (padded p ++ .char ',' :: gs) := by
  obtain ⟨q, qs, rfl, hqs, rfl⟩ := h
  refine ⟨p, q :: qs, rfl, List.forall_mem_cons.2 ⟨hp, hqs⟩, ?_⟩
  rw [List.map_cons, others_cons, List.cons_append, List.append_assoc]

end ListText

def ItemsText : List Json → List Glyph → Prop :=
  ListText (fun x : Item => x.Blank ∧ TextOf x.value x.text) Item.padded Item.value ']'

def FieldsText : List (Option String × Json) → List Glyph → Prop :=
  ListText (fun f : Field => f.Plain ∧ TextOf f.item.value f.item.text) Field.padded Field.entry '\x7d'

theorem ItemsText.array {values : List Json} {gs : List Glyph} (h : ItemsText values gs) :
    TextOf (.array values) (.char '[' :: gs) := by
  obtain ⟨x, xs, rfl, hxs, rfl⟩ := h
  exact .items (fun y hy => (hxs y hy).1) fun y hy => (hxs y hy).2

theorem FieldsText.object {entries : List (Option String × Json)} {gs : List Glyph} (h : FieldsText entries gs) :
    TextOf (.object entries) (.char '\x7b' :: gs) := by
  obtain ⟨f, fs, rfl, hfs, rfl⟩ := h
  exact .fields (fun g hg => (hfs g hg).1) fun g hg => (hfs g hg).2

def StartsValue (c : Char) : Prop :=
  isBlank (.char c) = false ∧ c ≠ ']' ∧ c ≠ '\x7d'

instance (c : Char) : Decidable (StartsValue c) := inferInstanceAs (Decidable (_ ∧ _ ∧ _))

theorem startsValue_of_isDigit {c : Char} (hc : c.isDigit) : StartsValue c := by
  refine ⟨?_, ?_, ?_⟩
  · rw [Bool.eq_false_iff]
    intro hblank
    rcases eq_of_isBlank hblank with rfl | rfl | rfl | rfl <;> exact absurd hc (by decide)
  · rintro rfl
    exact absurd hc (by decide)
  · rintro rfl
    exact absurd hc (by decide)

/-- The reader gives the value for the glyphs, whatever comes after them. -/
structure Readable (j : Json) (gs : List Glyph) : Prop where
  starts : ∃ c more, gs = .char c :: more ∧ StartsValue c
  value : ∀ {n rest}, EndsNumber rest → gs.length ≤ n + 1 → value? (n + 1) (gs ++ rest) = some (j, rest)

theorem readable_number {s : String} (h : Numeral s) : Readable (.number s) (spelled s.toList) := by
  obtain ⟨c, cs, hchars, hc⟩ := h.starts
  constructor
  · refine ⟨c, spelled cs, by rw [hchars, spelled_cons], ?_⟩
    rcases hc with hc | rfl
    · exact startsValue_of_isDigit hc
    · decide
  · intro n rest hrest _
    have hscanned := h.scanned hrest
    rw [hchars, spelled_cons, List.cons_append] at hscanned ⊢
    rw [value?, hscanned, Option.map_some]
    -- none of the other first characters is a digit or a minus
    all_goals
      intro gs hg
      cases hg
      revert hc
      decide

theorem readable_string {content : Option String} {gs : List Glyph} (h : Quoted content gs) :
    Readable (.string content) (.char '"' :: gs) where
  starts := ⟨'"', gs, rfl, by decide⟩
  value {_ rest} _ _ := by rw [List.cons_append, value?, h rest, Option.map_some]

theorem Readable.value?_padded {x : Item} (h : Readable x.value x.text) (hx : x.Blank) {gs : List Glyph}
    (hgs : EndsNumber gs) {n : ℕ} (hn : x.padded.length ≤ n) :
    value? n (skip (x.padded ++ gs)) = some (x.value, spelled x.back ++ gs) := by
  obtain ⟨c, more, htext, hc⟩ := h.starts
  rw [Item.padded, List.length_append, List.length_append] at hn
  obtain ⟨n, rfl⟩ : ∃ m, n = m + 1 := Nat.exists_eq_add_one.2 (by rw [htext, List.length_cons] at hn; omega)
  have hvalue := h.value (hgs.blanks hx.back) (n := n) (by omega)
  rw [Item.padded, List.append_assoc, skip_append hx.front, List.append_assoc]
  rw [htext, List.cons_append] at hvalue ⊢
  rw [skip_mark hc.1, hvalue]

theorem items?_skip (n : ℕ) (gs : List Glyph) (acc : List Json) : items? n (skip gs) acc = items? n gs acc := by
  cases n with
  | zero => rfl
  | succ n => rw [items?, items?, skip_skip]

theorem value?_bracket {c : Char} {gs more : List Glyph} (hskip : skip gs = .char c :: more) (hc : c ≠ ']') (n : ℕ) :
    value? (n + 1) (.char '[' :: gs) = items? n gs [] := by
  rw [value?, hskip]
  split
  · rename_i heq
    cases heq
    exact absurd rfl hc
  · rw [← hskip, items?_skip]

theorem items?_padded {x : Item} {xs : List Item} (hblank : ∀ y ∈ x :: xs, y.Blank)
    (h : ∀ y ∈ x :: xs, Readable y.value y.text) {n : ℕ}
    (hn : x.padded.length + (others (xs.map Item.padded)).length < n) (acc : List Json) (rest : List Glyph) :
    items? n (x.padded ++ (others (xs.map Item.padded) ++ .char ']' :: rest)) acc =
      some (.array (acc.reverse ++ (x :: xs).map Item.value), rest) := by
  obtain ⟨n, rfl⟩ : ∃ m, n = m + 1 := Nat.exists_eq_add_one.2 (by omega)
  have hx := h x List.mem_cons_self
  have hxblank := hblank x List.mem_cons_self
  induction xs generalizing x n acc with
  | nil =>
    have hends : EndsNumber (.char ']' :: rest) := endsNumber_cons rfl (by decide) (by decide) (by decide) rest
    change items? (n + 1) (_ ++ .char ']' :: rest) acc = _
    rw [items?, hx.value?_padded hxblank hends (by omega)]
    simp only
    rw [skip_blanks hxblank.back rfl]
    simp only [List.reverse_cons, List.map_cons, List.map_nil]
  | cons y ys ih =>
    rw [List.map_cons, others_cons] at hn ⊢
    rw [List.length_cons, List.length_append] at hn
    obtain ⟨n, rfl⟩ : ∃ m, n = m + 1 := Nat.exists_eq_add_one.2 (by omega)
    have htail : ∀ z ∈ y :: ys, z ∈ x :: y :: ys := fun z hz => List.mem_cons_of_mem x hz
    rw [List.cons_append, List.append_assoc, items?, hx.value?_padded hxblank (endsNumber_comma _) (by omega)]
    simp only
    rw [skip_blanks hxblank.back rfl]
    simp only
    rw [ih (fun z hz => hblank z (htail z hz)) (fun z hz => h z (htail z hz)) _ _ (by omega)
      (h y (htail y List.mem_cons_self)) (hblank y (htail y List.mem_cons_self)), List.reverse_cons, List.append_assoc]
    rfl

theorem readable_items {x : Item} {xs : List Item} (hblank : ∀ y ∈ x :: xs, y.Blank)
    (h : ∀ y ∈ x :: xs, Readable y.value y.text) :
    Readable (.array ((x :: xs).map Item.value))
      (.char '[' :: (x.padded ++ (others (xs.map Item.padded) ++ [.char ']']))) where
  starts := ⟨'[', _, rfl, by decide⟩
  value {n rest} _ hn := by
    obtain ⟨c, more, htext, hc⟩ := (h x List.mem_cons_self).starts
    have hfront := (hblank x List.mem_cons_self).front
    have hskip (gs : List Glyph) : skip (x.padded ++ gs) = .char c :: (more ++ (spelled x.back ++ gs)) := by
      rw [Item.padded, htext, List.append_assoc, skip_append hfront, List.append_assoc, List.cons_append, skip_mark hc.1]
    simp only [List.length_cons, List.length_append, List.length_nil] at hn
    rw [List.cons_append, List.append_assoc, List.append_assoc, List.singleton_append, value?_bracket (hskip _) hc.2.1]
    exact items?_padded hblank h (by omega) [] rest

theorem fields?_skip (n : ℕ) (gs : List Glyph) (acc : List (Option String × Json)) :
    fields? n (skip gs) acc = fields? n gs acc := by
  cases n with
  | zero => rfl
  | succ n => rw [fields?, fields?, skip_skip]

theorem value?_brace {c : Char} {gs more : List Glyph} (hskip : skip gs = .char c :: more) (hc : c ≠ '\x7d') (n : ℕ) :
    value? (n + 1) (.char '\x7b' :: gs) = fields? n gs [] := by
  rw [value?, hskip]
  split
  · rename_i heq
    cases heq
    exact absurd rfl hc
  · rw [← hskip, fields?_skip]

/-- One field is read, and the mark behind it says how the object goes on. -/
theorem fields?_field {f : Field} (h : Readable f.item.value f.item.text) (hf : f.Plain) {c : Char} (hc : c = ',' ∨ c = '\x7d')
    {n : ℕ} (hn : f.padded.length ≤ n) (acc : List (Option String × Json)) (gs : List Glyph) :
    fields? (n + 1) (f.padded ++ .char c :: gs) acc =
      if c = ',' then fields? n gs (f.entry :: acc) else some (.object (f.entry :: acc).reverse, gs) := by
  have hends : EndsNumber (.char c :: gs) := by
    rcases hc with rfl | rfl <;> exact endsNumber_cons rfl (by decide) (by decide) (by decide) gs
  have hlength : f.item.padded.length ≤ n := by
    simp only [Field.padded, List.length_append, List.length_cons] at hn
    omega
  have hvalue := h.value?_padded hf.item hends hlength
  simp only [Field.padded, List.append_assoc, List.cons_append]
  rw [fields?, skip_blanks hf.front rfl]
  simp only
  rw [hf.quoted]
  simp only
  rw [skip_blanks hf.back rfl]
  simp only
  rw [hvalue]
  simp only
  rcases hc with rfl | rfl
  · rw [skip_blanks hf.item.back rfl, if_pos rfl]
    rfl
  · rw [skip_blanks hf.item.back rfl, if_neg (by decide)]
    rfl

theorem fields?_padded {f : Field} {fs : List Field} (hplain : ∀ g ∈ f :: fs, g.Plain)
    (h : ∀ g ∈ f :: fs, Readable g.item.value g.item.text) {n : ℕ}
    (hn : f.padded.length + (others (fs.map Field.padded)).length < n) (acc : List (Option String × Json))
    (rest : List Glyph) :
    fields? n (f.padded ++ (others (fs.map Field.padded) ++ .char '\x7d' :: rest)) acc =
      some (.object (acc.reverse ++ (f :: fs).map Field.entry), rest) := by
  obtain ⟨n, rfl⟩ : ∃ m, n = m + 1 := Nat.exists_eq_add_one.2 (by omega)
  have hf := h f List.mem_cons_self
  have hfplain := hplain f List.mem_cons_self
  induction fs generalizing f n acc with
  | nil =>
    change fields? (n + 1) (_ ++ .char '\x7d' :: rest) acc = _
    rw [fields?_field hf hfplain (.inr rfl) (by omega), if_neg (by decide), List.reverse_cons]
    rfl
  | cons g gs ih =>
    rw [List.map_cons, others_cons] at hn ⊢
    rw [List.length_cons, List.length_append] at hn
    obtain ⟨n, rfl⟩ : ∃ m, n = m + 1 := Nat.exists_eq_add_one.2 (by omega)
    have htail : ∀ e ∈ g :: gs, e ∈ f :: g :: gs := fun e he => List.mem_cons_of_mem f he
    rw [List.cons_append, List.append_assoc, fields?_field hf hfplain (.inl rfl) (by omega), if_pos rfl,
      ih (fun e he => hplain e (htail e he)) (fun e he => h e (htail e he)) _ _ (by omega)
        (h g (htail g List.mem_cons_self)) (hplain g (htail g List.mem_cons_self)), List.reverse_cons,
      List.append_assoc]
    rfl

theorem readable_fields {f : Field} {fs : List Field} (hplain : ∀ g ∈ f :: fs, g.Plain)
    (h : ∀ g ∈ f :: fs, Readable g.item.value g.item.text) :
    Readable (.object ((f :: fs).map Field.entry))
      (.char '\x7b' :: (f.padded ++ (others (fs.map Field.padded) ++ [.char '\x7d']))) where
  starts := ⟨'\x7b', _, rfl, by decide⟩
  value {n rest} _ hn := by
    have hfront := (hplain f List.mem_cons_self).front
    have hskip (gs : List Glyph) : skip (f.padded ++ gs) = .char '"' :: (f.quoted ++
        (spelled f.back ++ .char ':' :: f.item.padded) ++ gs) := by
      rw [Field.padded, List.append_assoc, List.cons_append, skip_blanks hfront rfl]
    simp only [List.length_cons, List.length_append, List.length_nil] at hn
    rw [List.cons_append, List.append_assoc, List.append_assoc, List.singleton_append,
      value?_brace (hskip _) (by decide)]
    exact fields?_padded hplain h (by omega) [] rest

theorem TextOf.readable {j : Json} {gs : List Glyph} (h : TextOf j gs) : Readable j gs := by
  induction h with
  | null => exact ⟨⟨'n', _, rfl, by decide⟩, fun _ _ => rfl⟩
  | true => exact ⟨⟨'t', _, rfl, by decide⟩, fun _ _ => rfl⟩
  | false => exact ⟨⟨'f', _, rfl, by decide⟩, fun _ _ => rfl⟩
  | number h => exact readable_number h
  | string h => exact readable_string h
  | noItems h =>
    refine ⟨⟨'[', _, rfl, by decide⟩, fun {_ rest} _ _ => ?_⟩
    rw [List.cons_append, List.append_assoc, value?, List.singleton_append, skip_blanks h rfl]
    rfl
  | items hblank _ ih => exact readable_items hblank ih
  | noFields h =>
    refine ⟨⟨'\x7b', _, rfl, by decide⟩, fun {_ rest} _ _ => ?_⟩
    rw [List.cons_append, List.append_assoc, value?, List.singleton_append, skip_blanks h rfl]
    rfl
  | fields hplain _ ih => exact readable_fields hplain ih

theorem ofGlyphs?_padded {x : Item} (hx : x.Blank) (h : TextOf x.value x.text) : ofGlyphs? x.padded = some x.value := by
  have hvalue := h.readable.value?_padded hx endsNumber_nil (n := x.padded.length + 1) (by omega)
  rw [List.append_nil, List.append_nil] at hvalue
  have hblank : skip (spelled x.back) = [] := List.dropWhile_eq_nil_iff.2 hx.back.spelled
  rw [ofGlyphs?, hvalue]
  exact if_pos hblank

end GraphProfile.Json
