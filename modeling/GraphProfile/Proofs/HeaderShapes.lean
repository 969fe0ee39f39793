import GraphProfile.Header
import Mathlib.Data.List.Forall2
import Mathlib.Data.List.TakeWhile

set_option autoImplicit false

namespace GraphProfile.Header

def Flat (cs : List Char) : Prop := ∀ c ∈ cs, c ≠ '(' ∧ c ≠ ')'

/-- What may follow the first colon, with its tag and its group. -/
inductive Annotated : List Char → List Char → Option (List Char) → Prop where
  | tag {tag : List Char} (htag : Flat tag) : Annotated tag tag none
  | group {tag group : List Char} (htag : Flat tag) (hgroup : '\n' ∉ group) :
      Annotated (tag ++ '(' :: (group ++ [')'])) tag (some group)

section
variable {tag : List Char} (htag : Flat tag)
include htag

theorem split?_of_flat : split? tag = some (tag, none) := by
  have hall : ∀ c ∈ tag, decide (c ≠ '(' ∧ c ≠ ')') = true := fun c hc => decide_eq_true (htag c hc)
  have hdrop : tag.dropWhile (fun c => c ≠ '(' ∧ c ≠ ')') = [] := List.dropWhile_eq_nil_iff.2 hall
  have htake := List.takeWhile_append_dropWhile (p := fun c => decide (c ≠ '(' ∧ c ≠ ')')) (l := tag)
  rw [hdrop, List.append_nil] at htake
  simp only [split?, hdrop, htake]

theorem split?_of_open (inner : List Char) :
    split? (tag ++ '(' :: inner) =
      if inner.getLast? = some ')' ∧ '\n' ∉ inner.dropLast then some (tag, some inner.dropLast) else none := by
  have hall : ∀ c ∈ tag, decide (c ≠ '(' ∧ c ≠ ')') = true := fun c hc => decide_eq_true (htag c hc)
  have htake : (tag ++ '(' :: inner).takeWhile (fun c => c ≠ '(' ∧ c ≠ ')') = tag := by
    rw [List.takeWhile_append_of_pos hall, List.takeWhile_cons_of_neg (by decide), List.append_nil]
  have hdrop : (tag ++ '(' :: inner).dropWhile (fun c => c ≠ '(' ∧ c ≠ ')') = '(' :: inner := by
    rw [List.dropWhile_append_of_pos hall, List.dropWhile_cons_of_neg (by decide)]
  simp only [split?, htake, hdrop]
  rfl

theorem split?_of_close (inner : List Char) : split? (tag ++ ')' :: inner) = none := by
  have hall : ∀ c ∈ tag, decide (c ≠ '(' ∧ c ≠ ')') = true := fun c hc => decide_eq_true (htag c hc)
  have hdrop : (tag ++ ')' :: inner).dropWhile (fun c => c ≠ '(' ∧ c ≠ ')') = ')' :: inner := by
    rw [List.dropWhile_append_of_pos hall, List.dropWhile_cons_of_neg (by decide)]
  simp only [split?, hdrop]

end

theorem flat_or_open_or_close (rest : List Char) :
    Flat rest ∨ (∃ tag inner, rest = tag ++ '(' :: inner ∧ Flat tag) ∨ ∃ tag inner, rest = tag ++ ')' :: inner ∧ Flat tag := by
  induction rest with
  | nil => exact .inl fun c hc => by cases hc
  | cons c rest ih =>
    by_cases hopen : c = '('
    · exact .inr (.inl ⟨[], rest, by rw [hopen]; rfl, fun d hd => by cases hd⟩)
    by_cases hclose : c = ')'
    · exact .inr (.inr ⟨[], rest, by rw [hclose]; rfl, fun d hd => by cases hd⟩)
    have hcons : ∀ {tag : List Char}, Flat tag → Flat (c :: tag) := by
      intro tag htag
      exact List.forall_mem_cons.2 ⟨⟨hopen, hclose⟩, htag⟩
    rcases ih with hflat | ⟨tag, inner, rfl, htag⟩ | ⟨tag, inner, rfl, htag⟩
    · exact .inl (hcons hflat)
    · exact .inr (.inl ⟨c :: tag, inner, rfl, hcons htag⟩)
    · exact .inr (.inr ⟨c :: tag, inner, rfl, hcons htag⟩)

theorem split?_eq_some_iff {rest tag : List Char} {group : Option (List Char)} :
    split? rest = some (tag, group) ↔ Annotated rest tag group := by
  constructor
  · intro h
    rcases flat_or_open_or_close rest with hflat | ⟨front, inner, rfl, hfront⟩ | ⟨front, inner, rfl, hfront⟩
    · rw [split?_of_flat hflat] at h
      cases h
      exact .tag hflat
    · rw [split?_of_open hfront] at h
      obtain ⟨⟨hlast, hline⟩, hparts⟩ := Option.ite_none_right_eq_some.1 h
      cases hparts
      obtain ⟨body, rfl⟩ := List.getLast?_eq_some_iff.1 hlast
      rw [List.dropLast_concat] at hline ⊢
      exact .group hfront hline
    · rw [split?_of_close hfront] at h
      cases h
  · intro h
    cases h with
    | tag htag => exact split?_of_flat htag
    | group htag hgroup =>
      rw [split?_of_open htag, List.getLast?_concat, List.dropLast_concat, if_pos ⟨rfl, hgroup⟩]

theorem raw_parse (raw : String) : (parse raw).raw = raw := by
  rw [parse]
  split
  · rfl
  · split <;> rfl

section
variable {raw : String}

theorem parse_of_not_mem (h : ':' ∉ raw.toList) : parse raw = { raw, name := raw, tag := none, group := none } := by
  have hnone : raw.toList.dropWhile (· ≠ ':') = [] := by
    rw [List.dropWhile_eq_nil_iff]
    intro c hc
    exact decide_eq_true fun heq => h (heq ▸ hc)
  rw [parse, hnone]

variable {before rest : List Char} (hraw : raw.toList = before ++ ':' :: rest) (hbefore : ':' ∉ before)
include hraw hbefore

theorem parse_of_colon :
    parse raw =
      (split? rest).elim { raw, name := raw, tag := none, group := none } fun parts =>
        { raw
          name := String.ofList before
          tag := if parts.1 = [] then none else some (String.ofList parts.1)
          group := parts.2.map String.ofList } := by
  have hall : ∀ c ∈ before, decide (c ≠ ':') = true := fun c hc => decide_eq_true fun heq => hbefore (heq ▸ hc)
  have htake : raw.toList.takeWhile (· ≠ ':') = before := by
    rw [hraw, List.takeWhile_append_of_pos hall, List.takeWhile_cons_of_neg (by decide), List.append_nil]
  have hdrop : raw.toList.dropWhile (· ≠ ':') = ':' :: rest := by
    rw [hraw, List.dropWhile_append_of_pos hall, List.dropWhile_cons_of_neg (by decide)]
  simp only [parse, hdrop, htake]
  cases split? rest <;> rfl

theorem parse_of_annotated {tag : List Char} {group : Option (List Char)} (h : Annotated rest tag group) :
    parse raw =
      { raw
        name := String.ofList before
        tag := if tag = [] then none else some (String.ofList tag)
        group := group.map String.ofList } := by
  rw [parse_of_colon hraw hbefore, split?_eq_some_iff.2 h, Option.elim_some]

theorem parse_of_not_annotated (h : ¬∃ tag group, Annotated rest tag group) :
    parse raw = { raw, name := raw, tag := none, group := none } := by
  have hnone : split? rest = none := by
    rw [Option.eq_none_iff_forall_ne_some]
    rintro ⟨tag, group⟩ hsome
    exact h ⟨tag, group, split?_eq_some_iff.1 hsome⟩
  rw [parse_of_colon hraw hbefore, hnone, Option.elim_none]

theorem name_parse_ne_iff : (parse raw).name ≠ raw ↔ ∃ tag group, Annotated rest tag group := by
  constructor
  · intro hne
    by_contra hnone
    exact hne (by rw [parse_of_not_annotated hraw hbefore hnone])
  · rintro ⟨tag, group, h⟩ heq
    rw [parse_of_annotated hraw hbefore h] at heq
    have hlist : before = before ++ ':' :: rest := by
      rw [← hraw, ← heq, String.toList_ofList]
    simpa using congrArg List.length hlist

end

/-- Two characters that differ in the case of an ASCII letter at most. -/
def SameLetter (c d : Char) : Prop :=
  c = d ∨ ('A' ≤ c ∧ c ≤ 'Z' ∧ d.toNat = c.toNat + 32) ∨ ('A' ≤ d ∧ d ≤ 'Z' ∧ c.toNat = d.toNat + 32)

instance (c d : Char) : Decidable (SameLetter c d) := inferInstanceAs (Decidable (_ ∨ _))

theorem upper_iff {c : Char} : 'A' ≤ c ∧ c ≤ 'Z' ↔ 65 ≤ c.toNat ∧ c.toNat ≤ 90 := Iff.rfl

theorem toNat_toLower (c : Char) : c.toLower.toNat = if 'A' ≤ c ∧ c ≤ 'Z' then c.toNat + 32 else c.toNat := by
  by_cases h : 'A' ≤ c ∧ c ≤ 'Z'
  · have hupper : c.val.toNat ≤ 90 := h.2
    have hlower : c.toLower.val = c.val + 32 := congrArg Char.val (dif_pos h)
    have hsum : (c.val + 32).toNat = (c.val.toNat + 32) % 2 ^ 32 := UInt32.toNat_add _ _
    rw [Nat.mod_eq_of_lt (by omega), ← hlower] at hsum
    rw [if_pos h]
    exact hsum
  · have hlower : c.toLower = c := dif_neg h
    rw [if_neg h, hlower]

theorem toLower_eq_toLower_iff {c d : Char} : c.toLower = d.toLower ↔ SameLetter c d := by
  rw [SameLetter, ← Char.toNat_inj, ← Char.toNat_inj, toNat_toLower, toNat_toLower, ← and_assoc, ← and_assoc]
  simp only [upper_iff]
  split <;> split <;> omega

def SameWord (word tag : String) : Prop := List.Forall₂ SameLetter word.toList tag.toList

instance (word tag : String) : Decidable (SameWord word tag) := inferInstanceAs (Decidable (List.Forall₂ _ _ _))

theorem toLower_eq_iff {word tag : String} : word.toLower = tag.toLower ↔ SameWord word tag := by
  have hlower : ∀ s : String, s.toLower.toList = s.toList.map Char.toLower := fun s => String.toList_map
  rw [← String.toList_inj, hlower, hlower, ← List.forall₂_eq_eq_eq, List.forall₂_map_left_iff, List.forall₂_map_right_iff]
  simp only [toLower_eq_toLower_iff]
  rfl

def structuralWords : List String := ["ID", "START_ID", "END_ID", "LABEL", "TYPE"]

theorem structuralTags_eq : structuralTags = structuralWords.map String.toLower := by decide +kernel

theorem isStructural_iff (h : Header) :
    h.isStructural ↔ h.raw.toList.head? = some ':' ∨ ∃ tag ∈ h.tag, ∃ word ∈ structuralWords, SameWord word tag := by
  rw [isStructural, Bool.or_eq_true, beq_iff_eq]
  apply or_congr Iff.rfl
  rw [foldedTag, structuralTags_eq]
  cases h.tag with
  | none => simp
  | some tag => simp [toLower_eq_iff]

/-- The first colon ends the name where an annotation follows it, and then the header has the tag and the group of the
    annotation. Any other header is a name as a whole. The structure of the graph is in the columns without a name before
    the colon and in those whose tag says so, in letters of any case. -/
theorem parse_of_shape (raw : String) :
    (parse raw).raw = raw ∧
      (':' ∉ raw.toList → (parse raw).name = raw ∧ (parse raw).tag = none ∧ (parse raw).group = none) ∧
      (∀ before rest, raw.toList = before ++ ':' :: rest → ':' ∉ before →
        ((parse raw).name ≠ raw ↔ ∃ tag group, Annotated rest tag group) ∧
        (∀ tag group, Annotated rest tag group →
          (parse raw).name = String.ofList before ∧
            (parse raw).tag = (if tag = [] then none else some (String.ofList tag)) ∧
            (parse raw).group = group.map String.ofList) ∧
        ((parse raw).name = raw → (parse raw).tag = none ∧ (parse raw).group = none)) ∧
      ((parse raw).isStructural ↔
        raw.toList.head? = some ':' ∨
          ∃ tag, (parse raw).tag = some tag ∧ ∃ word ∈ structuralWords, SameWord word tag) := by
  refine ⟨raw_parse raw, ?_, ?_, ?_⟩
  · intro hcolon
    rw [parse_of_not_mem hcolon]
    exact ⟨rfl, rfl, rfl⟩
  · intro before rest hsplit hbefore
    have hshape := name_parse_ne_iff hsplit hbefore
    refine ⟨hshape, ?_, ?_⟩
    · intro tag group hannotated
      rw [parse_of_annotated hsplit hbefore hannotated]
      exact ⟨rfl, rfl, rfl⟩
    · intro hname
      rw [parse_of_not_annotated hsplit hbefore fun hsome => hshape.2 hsome hname]
      exact ⟨rfl, rfl⟩
  · rw [isStructural_iff, raw_parse]
    rfl

/-- A group with parentheses of its own, a name without a colon, and a colon with nothing of the kind behind it. -/
theorem parse_of_shape_nested :
    let h := parse "from:Start_Id((a):(b))"
    let g := parse "from:start)id("
    "from:Start_Id((a):(b))".toList = "from".toList ++ ':' :: "Start_Id((a):(b))".toList ∧ ':' ∉ "from".toList ∧
      Annotated "Start_Id((a):(b))".toList "Start_Id".toList (some "(a):(b)".toList) ∧
      h.name = "from" ∧ h.tag = some "Start_Id" ∧ h.group = some "(a):(b)" ∧ h.isStructural ∧
      (parse "from").name = "from" ∧
      "from:start)id(".toList = "from".toList ++ ':' :: "start)id(".toList ∧
      (¬∃ tag group, Annotated "start)id(".toList tag group) ∧ g.name = "from:start)id(" ∧ g.tag = none := by
  intro h g
  have hsplit : "from:Start_Id((a):(b))".toList = "from".toList ++ ':' :: "Start_Id((a):(b))".toList := by decide +kernel
  have hbefore : ':' ∉ "from".toList := by decide +kernel
  have hannotated : Annotated "Start_Id((a):(b))".toList "Start_Id".toList (some "(a):(b)".toList) :=
    split?_eq_some_iff.1 (by decide +kernel)
  have hopen : "from:start)id(".toList = "from".toList ++ ':' :: "start)id(".toList := by decide +kernel
  have hnone : ¬∃ tag group, Annotated "start)id(".toList tag group := by
    rintro ⟨tag, group, hsome⟩
    have hsplit? : split? "start)id(".toList = none := by decide +kernel
    rw [split?_eq_some_iff.2 hsome] at hsplit?
    cases hsplit?
  have hword : SameWord "START_ID" "Start_Id" := by decide +kernel
  have hne : "Start_Id".toList ≠ [] := by decide +kernel
  obtain ⟨-, -, hshape, hstructural⟩ := parse_of_shape "from:Start_Id((a):(b))"
  obtain ⟨hname, htag, hgroup⟩ := (hshape _ _ hsplit hbefore).2.1 _ _ hannotated
  rw [String.ofList_toList] at hname
  rw [if_neg hne, String.ofList_toList] at htag
  rw [Option.map_some, String.ofList_toList] at hgroup
  obtain ⟨-, hbare, -⟩ := parse_of_shape "from"
  obtain ⟨-, -, hother, -⟩ := parse_of_shape "from:start)id("
  obtain ⟨hiff, -, hwhole⟩ := hother _ _ hopen hbefore
  have hkept : g.name = "from:start)id(" := not_not.1 fun hne => hnone (hiff.1 hne)
  exact ⟨hsplit, hbefore, hannotated, hname, htag, hgroup,
    hstructural.2 (.inr ⟨"Start_Id", htag, "START_ID", by decide, hword⟩), (hbare hbefore).1, hopen, hnone, hkept,
    (hwhole hkept).1⟩

end GraphProfile.Header
