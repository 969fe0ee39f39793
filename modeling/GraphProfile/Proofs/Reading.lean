import GraphProfile.Proofs.Grammar

set_option autoImplicit false

namespace GraphProfile.Json

structure Form.Blank (form : Form) : Prop where
  lineBreak : ∀ depth, AllBlank (form.lineBreak depth)
  afterColon : AllBlank form.afterColon

theorem blank_prettyForm : prettyForm.Blank := by
  constructor
  · intro depth c hc
    rcases List.mem_cons.1 hc with rfl | hc
    · rfl
    · rw [List.eq_of_mem_replicate hc]
      rfl
  · intro c hc
    rw [List.mem_singleton.1 hc]
    rfl

/-- The trees that are read back as they are printed. -/
inductive Printable : Json → Prop where
  | null : Printable .null
  | bool (b : Bool) : Printable (.bool b)
  | number {s : String} (h : Numeral s) : Printable (.number s)
  | string (content : Option String) : Printable (.string content)
  | array {items : List Json} (h : ∀ x ∈ items, Printable x) : Printable (.array items)
  | object {fields : List (Option String × Json)} (h : ∀ f ∈ fields, Printable f.2) : Printable (.object fields)

theorem Printable.text (s : String) : (text s).Printable := .string (some s)

theorem Printable.ofFields {fields : List (String × Json)} (h : ∀ f ∈ fields, f.2.Printable) :
    (ofFields fields).Printable := by
  refine .object fun f hf => ?_
  obtain ⟨g, hg, rfl⟩ := List.mem_map.1 hf
  exact h g hg

theorem printable_array_iff {items : List Json} : (array items).Printable ↔ ∀ x ∈ items, x.Printable :=
  ⟨fun h => match h with | .array h => h, .array⟩

theorem printable_object_iff {fields : List (Option String × Json)} :
    (object fields).Printable ↔ ∀ f ∈ fields, f.2.Printable :=
  ⟨fun h => match h with | .object h => h, .object⟩

theorem printable_array_append_cons {before after : List Json} {x : Json} :
    (array (before ++ x :: after)).Printable ↔ x.Printable ∧ (array (before ++ after)).Printable := by
  simp only [printable_array_iff, List.forall_mem_append, List.forall_mem_cons]
  exact and_left_comm

theorem printable_object_append_cons {before after : List (Option String × Json)} {k : Option String} {x : Json} :
    (object (before ++ (k, x) :: after)).Printable ↔ x.Printable ∧ (object (before ++ after)).Printable := by
  simp only [printable_object_iff, List.forall_mem_append, List.forall_mem_cons]
  exact and_left_comm

theorem exists_quoted (content : Option String) :
    ∃ cs, stringChars content = '"' :: cs ∧ Quoted content (spelled cs) := by
  cases content with
  | none =>
    refine ⟨['\\', 'u', 'd', '8', '0', '0', '"'], rfl, fun rest => ?_⟩
    have hunit : unit? (.char 'd') (.char '8') (.char '0') (.char '0') = some 0xD800 := by decide
    change string? (.char '\\' :: .char 'u' :: .char 'd' :: .char '8' :: .char '0' :: .char '0' :: .char '"' :: rest) = _
    rw [string?, pieces?, hunit]
    simp only
    rw [pieceOfUnit, if_pos (by decide)]
    rfl
  | some s => exact ⟨_, rfl, string?_text s⟩

section
variable {form : Form} (hform : form.Blank)
include hform

/-- The last item has the break in front of the closing mark behind it, the others have nothing. -/
theorem itemsText_chars {depth : ℕ} {x : Json} {xs : List Json}
    (h : ∀ y ∈ x :: xs, TextOf y (spelled (chars form depth y))) {bs : List Char} (hbs : AllBlank bs) :
    ItemsText (x :: xs) (spelled (form.lineBreak depth ++ (chars form depth x ++
      (itemsChars form depth xs ++ (bs ++ [']']))))) := by
  have hlines := hform.lineBreak depth
  induction xs generalizing x with
  | nil =>
    have hlast : ItemsText _ _ := .last (p := ⟨form.lineBreak depth, x, spelled (chars form depth x), bs⟩)
      ⟨⟨hlines, hbs⟩, h x List.mem_cons_self⟩
    simpa only [Item.padded, itemsChars, spelled_append, spelled_cons, spelled_nil, List.append_assoc,
      List.nil_append] using hlast
  | cons y ys ih =>
    have hcons : ItemsText _ _ := .cons (p := ⟨form.lineBreak depth, x, spelled (chars form depth x), []⟩)
      ⟨⟨hlines, allBlank_nil⟩, h x List.mem_cons_self⟩ (ih fun z hz => h z (List.mem_cons_of_mem x hz))
    simpa only [Item.padded, itemsChars, spelled_append, spelled_cons, spelled_nil, List.append_assoc,
      List.cons_append, List.nil_append] using hcons

theorem fieldsText_chars {depth : ℕ} {f : Option String × Json} {fs : List (Option String × Json)}
    (h : ∀ g ∈ f :: fs, TextOf g.2 (spelled (chars form depth g.2))) {bs : List Char} (hbs : AllBlank bs) :
    FieldsText (f :: fs) (spelled (form.lineBreak depth ++ (stringChars f.1 ++ (':' :: (form.afterColon ++
      (chars form depth f.2 ++ (fieldsChars form depth fs ++ (bs ++ ['\x7d'])))))))) := by
  have hlines := hform.lineBreak depth
  have hcolon := hform.afterColon
  induction fs generalizing f with
  | nil =>
    obtain ⟨cs, hname, hquoted⟩ := exists_quoted f.1
    have hlast : FieldsText _ _ := .last (p := ⟨form.lineBreak depth, f.1, spelled cs, [],
      ⟨form.afterColon, f.2, spelled (chars form depth f.2), bs⟩⟩)
      ⟨⟨hlines, hquoted, allBlank_nil, hcolon, hbs⟩, h f List.mem_cons_self⟩
    simpa only [Field.entry, Field.padded, Item.padded, hname, fieldsChars, spelled_append, spelled_cons,
      spelled_nil, List.append_assoc, List.cons_append, List.nil_append] using hlast
  | cons g gs ih =>
    obtain ⟨cs, hname, hquoted⟩ := exists_quoted f.1
    have hcons : FieldsText _ _ := .cons (p := ⟨form.lineBreak depth, f.1, spelled cs, [],
      ⟨form.afterColon, f.2, spelled (chars form depth f.2), []⟩⟩)
      ⟨⟨hlines, hquoted, allBlank_nil, hcolon, allBlank_nil⟩, h f List.mem_cons_self⟩
      (ih fun e he => h e (List.mem_cons_of_mem f he))
    simpa only [Field.entry, Field.padded, Item.padded, hname, fieldsChars, spelled_append, spelled_cons,
      spelled_nil, List.append_assoc, List.cons_append, List.nil_append] using hcons

theorem Printable.textOf_chars {j : Json} (h : j.Printable) (depth : ℕ) : TextOf j (spelled (chars form depth j)) := by
  induction h generalizing depth with
  | null => exact .null
  | bool b =>
    cases b with
    | false => exact .false
    | true => exact .true
  | number h => exact .number h
  | string content =>
    obtain ⟨cs, hchars, hquoted⟩ := exists_quoted content
    rw [chars, hchars]
    exact .string hquoted
  | @array items _ ih =>
    cases items with
    | nil => exact .noItems allBlank_nil
    | cons x xs => exact (itemsText_chars hform (fun y hy => ih y hy (depth + 1)) (hform.lineBreak depth)).array
  | @object fields _ ih =>
    cases fields with
    | nil => exact .noFields allBlank_nil
    | cons f fs => exact (fieldsText_chars hform (fun g hg => ih g hg (depth + 1)) (hform.lineBreak depth)).object

theorem ofGlyphs?_chars {j : Json} (h : Printable j) {bs : List Char} (hbs : AllBlank bs) :
    ofGlyphs? (spelled (chars form 0 j ++ bs)) = some j := by
  rw [spelled_append]
  exact ofGlyphs?_padded (x := ⟨[], j, spelled (chars form 0 j), bs⟩) ⟨allBlank_nil, hbs⟩ (h.textOf_chars hform 0)

end

end GraphProfile.Json
