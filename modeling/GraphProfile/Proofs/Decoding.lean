import GraphProfile.Profile.Decode
import GraphProfile.Profile.Encode
import GraphProfile.Proofs.Maps
import GraphProfile.Proofs.Reading
import GraphProfile.Proofs.Slots
import GraphProfile.Proofs.Storable

set_option autoImplicit false

namespace GraphProfile
open Std

/-- What is encoded for `a` can be printed, and is decoded as `a` again. -/
structure Kept {α : Type} (encode : α → Json) (decode? : Json → Option α) (a : α) : Prop where
  printable : (encode a).Printable
  decoded : decode? (encode a) = some a

namespace Json

theorem natural?_toString (n : ℕ) : Decimal.natural? (toString n).toList = some n := by
  change Decimal.natural? (String.ofList (Decimal.digitChars n)).toList = _
  rw [String.toList_ofList, Decimal.natural?_of_allDigits (Decimal.digitChars_ne_nil n)
    (Decimal.allDigits_digitChars n), Decimal.digitsValue_digitChars]

theorem kept_nat {n : ℕ} (h : n < UInt64.size) : Kept nat count? n where
  printable := .number (numeral_nat n)
  decoded := by
    rw [nat, count?, natural?_toString, Option.filter_some, if_pos (decide_eq_true h)]

theorem readFinite?_float (l : Decimal.Layout) {x : Float} (h : x.isFinite) :
    readFinite? (l.text x).toList = some x := by
  rw [readFinite?, Decimal.Layout.text, String.toList_ofList, Decimal.Layout.float?_chars l h, Option.filter_some, if_pos h]

theorem kept_float {x : Float} (h : x.isFinite) : Kept float float? x where
  printable := by
    rw [float, if_pos h]
    exact .number (numeral_float h)
  decoded := by
    rw [float, if_pos h]
    exact readFinite?_float floatLayout h

section
variable {α : Type} {encode : α → Json} {decode? : Json → Option α}

theorem kept_array {as : List α} (h : ∀ a ∈ as, Kept encode decode? a) :
    Kept (fun as => .array (as.map encode)) (array? decode?) as where
  printable := by
    refine .array fun j hj => ?_
    obtain ⟨a, ha, rfl⟩ := List.mem_map.1 hj
    exact (h a ha).printable
  decoded := by
    change (as.map encode).mapM decode? = some as
    induction as with
    | nil => rfl
    | cons a as ih =>
      rw [List.map_cons, List.mapM_cons, (h a List.mem_cons_self).decoded,
        ih fun b hb => h b (List.mem_cons_of_mem a hb)]
      rfl

variable {κ : Type} [Ord κ] [TransOrd κ] {key : κ → String} {readKey? : String → Option κ}

theorem map?_ofFields {entries : List (κ × α)} (hkeys : ∀ e ∈ entries, readKey? (key e.1) = some e.1)
    (h : ∀ e ∈ entries, decode? (encode e.2) = some e.2) :
    map? readKey? decode? (.ofFields (entries.map fun e => (key e.1, encode e.2))) = some (ExtTreeMap.ofList entries) := by
  rw [ofFields, map?, List.map_map, ExtTreeMap.ofList_eq_insertMany_empty]
  generalize (∅ : ExtTreeMap κ α) = m
  induction entries generalizing m with
  | nil => rw [List.map_nil, List.foldlM_nil, ExtTreeMap.insertMany_nil]; rfl
  | cons e entries ih =>
    have hkey := hkeys e List.mem_cons_self
    have he := h e List.mem_cons_self
    rw [List.map_cons, List.foldlM_cons, ExtTreeMap.insertMany_cons,
      ← ih (fun f hf => hkeys f (List.mem_cons_of_mem e hf)) fun f hf => h f (List.mem_cons_of_mem e hf)]
    simp only [Function.comp_apply, Option.bind_some, Option.bind_eq_bind, hkey, he]
    rfl

variable [LawfulEqOrd κ] [DecidableEq κ]

theorem kept_map {m : ExtTreeMap κ α} (hkeys : ∀ e ∈ m.toList, readKey? (key e.1) = some e.1)
    (h : ∀ e ∈ m.toList, Kept encode decode? e.2) : Kept (encodeMap key encode) (map? readKey? decode?) m where
  printable := by
    refine .ofFields fun f hf => ?_
    obtain ⟨e, he, rfl⟩ := List.mem_map.1 hf
    exact (h e he).printable
  decoded := by
    rw [encodeMap, map?_ofFields hkeys fun e he => (h e he).decoded, ofList_toList]

end

theorem slots?_ofFields {names : List String} (hnames : names.Nodup) {fields : List (String × Json)}
    (hfields : fields.map Prod.fst = names) : slots? names (.ofFields fields) = some (fields.map fun f => some f.2) := by
  subst hfields
  have hkeys : (fields.map fun f => (some f.1, f.2)).map Prod.fst = (fields.map Prod.fst).map some := by
    rw [List.map_map, List.map_map]
    rfl
  have hdistinct : Distinct (fields.map Prod.fst) (fields.map fun f => (some f.1, f.2)) := by
    constructor
    · rw [hkeys]
      intro key hkey
      obtain ⟨name, -, rfl⟩ := List.mem_map.1 hkey
      rfl
    · rw [hkeys]
      exact (hnames.map (Option.some_injective String)).filter _
  rw [ofFields, slots?_of_distinct hdistinct, List.map_map]
  congr 1
  refine List.map_congr_left fun f hf => ?_
  exact (hdistinct.fieldOf_eq_some_iff (List.mem_map_of_mem hf)).2 (List.mem_map.2 ⟨f, hf, rfl⟩)

end Json

theorem integer?_toString (z : ℤ) : Decimal.integer? (toString z).toList = some z := by
  cases z with
  | ofNat n =>
    change Decimal.integer? (String.ofList (Decimal.digitChars n)).toList = _
    rw [String.toList_ofList, Decimal.integer?_of_allDigits (Decimal.digitChars_ne_nil n)
      (Decimal.allDigits_digitChars n), Decimal.digitsValue_digitChars]
    rfl
  | negSucc n =>
    change Decimal.integer? ("-" ++ String.ofList (Decimal.digitChars (n + 1))).toList = _
    rw [String.toList_append, String.toList_ofList, String.toList_ofList]
    change Decimal.integer? ('-' :: Decimal.digitChars (n + 1)) = _
    rw [Decimal.integer?_minus (Decimal.digitChars_ne_nil _) (Decimal.allDigits_digitChars _),
      Decimal.digitsValue_digitChars]
    rfl

theorem toInt64?_toInt (n : Int64) : toInt64? n.toInt = some n := by
  rw [toInt64?, if_pos ⟨n.minValue_le_toInt, n.toInt_le⟩, Int64.ofInt_toInt]

namespace Bound

theorem kept_int (n : Int64) : Kept encode decode? (.int n) where
  printable := .number (Json.numeral_int n.toInt)
  decoded := by
    have hzero : toString n.toInt ≠ "-0" := by
      intro h
      have hread := integer?_toString n.toInt
      rw [h] at hread
      have hn : n.toInt = 0 := (Option.some.inj hread).symm
      rw [hn] at h
      exact absurd h (by decide)
    rw [encode, Json.int, decode?, if_neg hzero, readInt64?, integer?_toString, Option.bind_some, toInt64?_toInt]

/-- The point or the exponent of a float says that it is none of the integers. -/
theorem kept_float {x : Float} (h : x.isFinite) : Kept encode decode? (.float x) where
  printable := (Json.kept_float h).printable
  decoded := by
    have hread : readInt64? (Json.floatLayout.text x).toList = none := by
      rw [readInt64?, Decimal.Layout.text, String.toList_ofList, Decimal.Layout.integer?_chars _ h rfl, Option.bind_none]
    rw [encode, Json.float, if_pos h, decode?, hread, ite_self, Json.readFinite?_float _ h]
    rfl

theorem kept {b : Bound} (h : b.Storable) : Kept encode decode? b := by
  cases b with
  | int n => exact kept_int n
  | float x => exact kept_float h

theorem kept_slot {o : Option Bound} (h : ∀ b ∈ o, b.Storable) :
    Kept (Json.ofOption encode) (fun j => slot? (some j)) o := by
  cases o with
  | none => exact ⟨.null, rfl⟩
  | some b =>
    have hb := kept (h b rfl)
    refine ⟨hb.printable, ?_⟩
    change slot? (some b.encode) = some (some b)
    rw [slot?, hb.decoded, Option.map_some]
    intro hnull
    have hdecoded := hb.decoded
    rw [hnull] at hdecoded
    cases hdecoded

end Bound

theorem Threshold.parse_text {t : Threshold} (h : t.value.isNaN = false) : parse t.text = .ok t := by
  have hread : Decimal.float? (layout.chars t.value) = some t.value := by
    cases hfinite : t.value.isFinite with
    | true => exact Decimal.Layout.float?_chars layout hfinite
    | false => exact Decimal.Layout.float?_chars_of_not_finite layout hfinite h
  rw [parse, text, Decimal.Layout.text, Decimal.parseFloat, String.toList_ofList, hread]
  rfl

end GraphProfile
