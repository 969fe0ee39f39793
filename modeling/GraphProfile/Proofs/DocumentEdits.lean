import GraphProfile.Proofs.Parsing
import GraphProfile.Proofs.Readers
import GraphProfile.Proofs.Storable

set_option autoImplicit false

namespace GraphProfile
open Std Json

/-- What is stored as an object with known fields. -/
inductive Part where
  | profile
  | record
  | histogram
  | selectivity
deriving DecidableEq

namespace Part

def Value : Part → Type
  | .profile => Profile
  | .record => Record
  | .histogram => Histogram
  | .selectivity => Selectivity

def decode? : (part : Part) → Json → Option part.Value
  | .profile => Profile.decode?
  | .record => Record.decode?
  | .histogram => Histogram.decode?
  | .selectivity => Selectivity.decode?

def readers : Part → List Reader
  | .profile => Profile.readers
  | .record => Record.readers
  | .histogram => Histogram.readers
  | .selectivity => Selectivity.readers

def names (part : Part) : List String := part.readers.map Reader.name

theorem readBy (part : Part) : ReadBy part.decode? part.readers := by
  cases part with
  | profile => exact Profile.readBy
  | record => exact Record.readBy
  | histogram => exact Histogram.readBy
  | selectivity => exact Selectivity.readBy

/-- Where one part holds another: under which name, and in which value there. -/
inductive Holds : Part → String → Part → (Json → Json) → Prop where
  | record {name : String} (hname : name = "v_attr_stats" ∨ name = "e_attr_stats") (label attr : String)
      (labelsBefore labelsAfter attrsBefore attrsAfter : List (Option String × Json)) :
      Holds .profile name .record fun j => .object (labelsBefore ++
        (some label, .object (attrsBefore ++ (some attr, j) :: attrsAfter)) :: labelsAfter)
  | histogram : Holds .record "histogram" .histogram id
  | selectivity : Holds .record "selectivity" .selectivity id

theorem Holds.exists_reader {outer inner : Part} {name : String} {around : Json → Json}
    (h : outer.Holds name inner around) :
    ∃ r ∈ outer.readers, r.name = name ∧
      (∀ {x y}, inner.decode? x = inner.decode? y → r.read (some (around x)) = r.read (some (around y))) ∧
      ∀ {x}, inner.decode? x = none → r.read (some (around x)) = none := by
  cases h with
  | record hname label attr lb la ab aa =>
    let around (j : Json) : Json := .object (lb ++ (some label, .object (ab ++ (some attr, j) :: aa)) :: la)
    have hread {x y : Json} (hxy : Record.decode? x = Record.decode? y) :
        decodeAttributes? (around x) = decodeAttributes? (around y) := map?_congr (map?_congr hxy _ _ _) _ _ _
    have hnone {x : Json} (hx : Record.decode? x = none) : decodeAttributes? (around x) = none :=
      map?_eq_none (map?_eq_none hx _ _ _) _ _ _
    rcases hname with rfl | rfl
    · exact ⟨⟨"v_attr_stats", orElse decodeAttributes? ∅⟩, by simp [readers, Profile.readers], rfl, hread, hnone⟩
    · exact ⟨⟨"e_attr_stats", orElse decodeAttributes? ∅⟩, by simp [readers, Profile.readers], rfl, hread, hnone⟩
  | histogram =>
    exact ⟨⟨"histogram", orElse Histogram.decode? .empty⟩, by simp [readers, Record.readers], rfl, fun h => h, fun h => h⟩
  | selectivity =>
    exact ⟨⟨"selectivity", required Selectivity.decode?⟩, by simp [readers, Record.readers], rfl, fun h => h, fun h => h⟩

/-- Where in a whole a part stands, with what there is around it. -/
inductive Place : Part → Part → (Json → Json) → Prop where
  | whole (part : Part) : Place part part id
  | field {outer inner whole : Part} {name : String} {around under : Json → Json} (h : Place outer whole around)
      (hholds : outer.Holds name inner under) (before after : List (Option String × Json)) :
      Place inner whole fun j => around (.object (before ++ (some name, under j) :: after))
  | item {outer inner whole : Part} {name : String} {around under : Json → Json} (h : Place outer whole around)
      (hholds : outer.Holds name inner under) {before : List Json} (hname : outer.names[before.length]? = some name)
      (after : List Json) : Place inner whole fun j => around (.array (before ++ under j :: after))

namespace Place

variable {part whole : Part} {around : Json → Json} (h : Place part whole around)
include h

theorem decode?_congr {x y : Json} (hxy : part.decode? x = part.decode? y) :
    whole.decode? (around x) = whole.decode? (around y) := by
  induction h generalizing x y with
  | whole part => exact hxy
  | @field outer _ _ _ _ _ _ hholds before after ih =>
    obtain ⟨r, hr, rfl, hread, _⟩ := hholds.exists_reader
    exact ih (outer.readBy.around_congr hr (fillsSlot_object (List.mem_map_of_mem hr) before after) (hread hxy))
  | @item outer _ _ _ _ _ _ hholds _ hname after ih =>
    obtain ⟨r, hr, rfl, hread, _⟩ := hholds.exists_reader
    exact ih (outer.readBy.around_congr hr (fillsSlot_array outer.readBy.nodup hname after) (hread hxy))

theorem decode?_eq_none {x : Json} (hx : part.decode? x = none) : whole.decode? (around x) = none := by
  induction h generalizing x with
  | whole part => exact hx
  | @field outer _ _ _ _ _ _ hholds before after ih =>
    obtain ⟨r, hr, rfl, _, hnone⟩ := hholds.exists_reader
    exact ih (outer.readBy.around_none hr (fillsSlot_object (List.mem_map_of_mem hr) before after) (hnone hx))
  | @item outer _ _ _ _ _ _ hholds _ hname after ih =>
    obtain ⟨r, hr, rfl, _, hnone⟩ := hholds.exists_reader
    exact ih (outer.readBy.around_none hr (fillsSlot_array outer.readBy.nodup hname after) (hnone hx))

end Place

/-- The fields that may be left out where they hold such a value. -/
inductive Vacant : Part → String → Json → Prop where
  | map {name : String} (hname : name ∈ ["v_label_cnt", "e_label_cnt", "v_attr_stats", "e_attr_stats"]) :
      Vacant .profile name (.object [])
  | bound {name : String} (hname : name ∈ ["min_value", "max_value"]) : Vacant .record name .null
  | histogram {x : Json} (hx : Histogram.decode? x = some .empty) : Vacant .record "histogram" x
  | list {name : String} (hname : name ∈ ["bins", "counts"]) : Vacant .histogram name (.array [])
  | frequencies : Vacant .histogram "value_counts" (.object [])
  | ranges {name : String} (hname : name ∈ ["gt", "ge", "lt", "le"]) : Vacant .selectivity name (.object [])

def requiredNames : Part → List String
  | .profile => ["v_cnt", "e_cnt"]
  | .record => ["count", "null_count", "distinct_count", "selectivity", "type"]
  | .histogram => []
  | .selectivity => ["eq", "ne"]

theorem Vacant.exists_reader {part : Part} {name : String} {x : Json} (h : part.Vacant name x) :
    ∃ r ∈ part.readers, r.name = name ∧ r.read (some x) = r.read none := by
  cases h with
  | map hname =>
    simp only [List.mem_cons, List.not_mem_nil, or_false] at hname
    rcases hname with rfl | rfl | rfl | rfl
    all_goals simp [readers, Profile.readers, orElse, decodeCounts?, decodeAttributes?, map?]
  | bound hname =>
    simp only [List.mem_cons, List.not_mem_nil, or_false] at hname
    rcases hname with rfl | rfl
    all_goals simp [readers, Record.readers, Bound.slot?]
  | histogram hx => simp [readers, Record.readers, orElse, hx]
  | list hname =>
    simp only [List.mem_cons, List.not_mem_nil, or_false] at hname
    rcases hname with rfl | rfl
    all_goals simp [readers, Histogram.readers, orElse, array?]
  | frequencies => simp [readers, Histogram.readers, orElse, map?]
  | ranges hname =>
    simp only [List.mem_cons, List.not_mem_nil, or_false] at hname
    rcases hname with rfl | rfl | rfl | rfl
    all_goals simp [readers, Selectivity.readers, orElse, decodeRanges?, map?]

theorem exists_reader_of_required {part : Part} {name : String} (h : name ∈ part.requiredNames) :
    ∃ r ∈ part.readers, r.name = name ∧ r.read none = none := by
  cases part
  all_goals simp only [requiredNames, List.mem_cons, List.not_mem_nil, or_false] at h
  · rcases h with rfl | rfl
    all_goals simp [readers, Profile.readers, required]
  · rcases h with rfl | rfl | rfl | rfl | rfl
    all_goals simp [readers, Record.readers, required]
  · rcases h with rfl | rfl
    all_goals simp [readers, Selectivity.readers, required]

/-- The edits after which an object is read as before: another order, more fields, and fewer empty ones. -/
inductive Tolerated (part : Part) : List (Option String × Json) → List (Option String × Json) → Prop where
  | permuted {fields fields' : List (Option String × Json)} (h : fields.Perm fields') : Tolerated part fields fields'
  | added {name : String} (hname : name ∉ part.names) {x : Json} (hx : ∃ bytes, x.HasText bytes)
      (before after : List (Option String × Json)) :
      Tolerated part (before ++ after) (before ++ (some name, x) :: after)
  | dropped {name : String} {x : Json} (h : part.Vacant name x) (before after : List (Option String × Json)) :
      Tolerated part (before ++ (some name, x) :: after) (before ++ after)
  | trans {fields fields' fields'' : List (Option String × Json)} (h : Tolerated part fields fields')
      (h' : Tolerated part fields' fields'') : Tolerated part fields fields''

/-- The edits after which an object is not read any more. -/
inductive Refused (part : Part) : List (Option String × Json) → List (Option String × Json) → Prop where
  | missing {name : String} (h : name ∈ part.requiredNames) (x : Json) (before after : List (Option String × Json)) :
      Refused part (before ++ (some name, x) :: after) (before ++ after)
  | repeated {name : String} (hname : name ∈ part.names) {x : Json} (hx : ∃ bytes, x.HasText bytes)
      (before after : List (Option String × Json)) (hmem : some name ∈ (before ++ after).map Prod.fst) :
      Refused part (before ++ after) (before ++ (some name, x) :: after)

section
variable {part : Part} {fields fields' : List (Option String × Json)} {a : part.Value}
  (ha : part.decode? (.object fields) = some a)
include ha

theorem Tolerated.decode?_eq (h : part.Tolerated fields fields') : part.decode? (.object fields') = some a := by
  induction h with
  | permuted h => rw [← ha, part.readBy.object_congr (slots?_perm h)]
  | added hname hx before after => rw [← ha, part.readBy.object_congr (slots?_unknown hname _)]
  | dropped h before after =>
    obtain ⟨r, hr, rfl, hread⟩ := h.exists_reader
    exact part.readBy.dropped_congr hr ha hread
  | trans _ _ ih ih' => exact ih' (ih ha)

theorem Refused.decode?_eq_none (h : part.Refused fields fields') : part.decode? (.object fields') = none := by
  cases h with
  | missing h x before after =>
    obtain ⟨r, hr, rfl, hread⟩ := exists_reader_of_required h
    exact part.readBy.dropped_none hr ha hread
  | repeated hname _ before after hmem => exact part.readBy.unreadable (slots?_repeated hname hmem _)

end

theorem Holds.printable {outer inner : Part} {name : String} {under : Json → Json}
    (h : outer.Holds name inner under) {x : Json} (hx : (under x).Printable) :
    x.Printable ∧ ∀ {y : Json}, y.Printable → (under y).Printable := by
  cases h with
  | record _ label attr lb la ab aa =>
    simp only [printable_object_append_cons] at hx ⊢
    exact ⟨hx.1.1, fun hy => ⟨⟨hy, hx.1.2⟩, hx.2⟩⟩
  | histogram | selectivity => exact ⟨hx, id⟩

theorem Place.printable {part whole : Part} {around : Json → Json} (h : Place part whole around) {x : Json}
    (hx : (around x).Printable) : x.Printable ∧ ∀ {y : Json}, y.Printable → (around y).Printable := by
  induction h generalizing x with
  | whole part => exact ⟨hx, id⟩
  | field _ hholds before after ih =>
    obtain ⟨hobject, haround⟩ := ih hx
    rw [printable_object_append_cons] at hobject
    obtain ⟨hinner, hunder⟩ := hholds.printable hobject.1
    exact ⟨hinner, fun hy => haround (printable_object_append_cons.2 ⟨hunder hy, hobject.2⟩)⟩
  | item _ hholds _ after ih =>
    obtain ⟨harray, haround⟩ := ih hx
    rw [printable_array_append_cons] at harray
    obtain ⟨hinner, hunder⟩ := hholds.printable harray.1
    exact ⟨hinner, fun hy => haround (printable_array_append_cons.2 ⟨hunder hy, harray.2⟩)⟩

section
variable {part : Part} {fields fields' : List (Option String × Json)} (hprintable : (Json.object fields).Printable)
include hprintable

theorem Tolerated.printable (h : part.Tolerated fields fields') : (Json.object fields').Printable := by
  induction h with
  | permuted h => exact printable_object_iff.2 fun f hf => printable_object_iff.1 hprintable f (h.mem_iff.2 hf)
  | added _ hx before after => exact printable_object_append_cons.2 ⟨printable_iff.2 hx, hprintable⟩
  | dropped _ before after => exact (printable_object_append_cons.1 hprintable).2
  | trans _ _ ih ih' => exact ih' (ih hprintable)

theorem Refused.printable (h : part.Refused fields fields') : (Json.object fields').Printable := by
  cases h with
  | missing _ x before after => exact (printable_object_append_cons.1 hprintable).2
  | repeated _ hx before after _ => exact printable_object_append_cons.2 ⟨printable_iff.2 hx, hprintable⟩

end

/-- There is a text of the tree, and all of them are as said. -/
def Texts (j : Json) (P : ByteArray → Prop) : Prop := (∃ bytes, j.HasText bytes) ∧ ∀ bytes, j.HasText bytes → P bytes

/-- What becomes of the texts of a tree when an object of it is edited, at whatever place it stands. -/
def Edited (whole : Part) (j : Json) (kept lost : ByteArray → Prop) : Prop :=
  ∀ {part : Part} {around : Json → Json} {fields : List (Option String × Json)},
    Place part whole around → around (.object fields) = j →
      (∀ fields', part.Tolerated fields fields' → Texts (around (.object fields')) kept) ∧
      ∀ fields', part.Refused fields fields' → Texts (around (.object fields')) lost

theorem edited_of_decode? {whole : Part} {j : Json} (hj : j.Printable) {a : whole.Value}
    (ha : whole.decode? j = some a) {kept lost : ByteArray → Prop}
    (hkept : ∀ {bytes j'}, parse? bytes = some j' → whole.decode? j' = some a → kept bytes)
    (hlost : ∀ {bytes j'}, parse? bytes = some j' → whole.decode? j' = none → lost bytes) :
    whole.Edited j kept lost := by
  intro part around fields hplace hfields
  subst hfields
  obtain ⟨hobject, haround⟩ := hplace.printable hj
  obtain ⟨b, hb⟩ : ∃ b, part.decode? (.object fields) = some b := by
    refine Option.ne_none_iff_exists'.1 fun hnone => ?_
    rw [hplace.decode?_eq_none hnone] at ha
    cases ha
  constructor
  · intro fields' hedit
    refine ⟨printable_iff.1 (haround (hedit.printable hobject)), fun bytes hbytes => ?_⟩
    refine hkept (parse?_eq_some_iff.2 hbytes) ?_
    rw [← ha]
    exact hplace.decode?_congr ((hedit.decode?_eq hb).trans hb.symm)
  · intro fields' hedit
    refine ⟨printable_iff.1 (haround (hedit.printable hobject)), fun bytes hbytes => ?_⟩
    exact hlost (parse?_eq_some_iff.2 hbytes) (hplace.decode?_eq_none (hedit.decode?_eq_none hb))

end Part

/-- Whichever text is read as a profile, or as a record: an object in it may have its fields in another order, further
    ones of unknown names, and none of those that are empty. Every text of the tree with that edit, and there is one, is
    read as before. Every text with a required field missing or a known one repeated is refused. -/
theorem texts_of_edited :
    (∀ bytes p, Profile.read bytes = .ok p → ∃ j : Json, j.HasText bytes ∧
      Part.profile.Edited j (fun text => Profile.read text = .ok p) fun text => Profile.read text = .error .shape) ∧
    ∀ bytes r, (parse? bytes).bind Record.decode? = some r → ∃ j : Json, j.HasText bytes ∧
      Part.record.Edited j (fun text => (parse? text).bind Record.decode? = some r)
        fun text => (parse? text).bind Record.decode? = none := by
  constructor
  · intro bytes p hread
    obtain ⟨j, hparse, hp⟩ := Profile.read_eq_ok_iff.1 hread
    have htext := parse?_eq_some_iff.1 hparse
    have hdecode : Part.profile.decode? j = some p := hp
    exact ⟨j, htext, Part.edited_of_decode? (printable_iff.2 ⟨bytes, htext⟩) hdecode
      (fun hparse' hp' => Profile.read_eq_ok_iff.2 ⟨_, hparse', hp'⟩)
      fun hparse' hnone => Profile.read_eq_shape_iff.2 ⟨_, hparse', hnone⟩⟩
  · intro bytes r hread
    obtain ⟨j, hparse, hr⟩ := Option.bind_eq_some_iff.1 hread
    have htext := parse?_eq_some_iff.1 hparse
    have hdecode : Part.record.decode? j = some r := hr
    refine ⟨j, htext, Part.edited_of_decode? (printable_iff.2 ⟨bytes, htext⟩) hdecode ?_ ?_⟩
    · intro text j' hparse' hr'
      rw [hparse']
      exact hr'
    · intro text j' hparse' hnone
      rw [hparse']
      exact hnone

/-- Deep in a document, a histogram loses an empty list and gets a field of another name; and then a field twice. -/
theorem texts_of_edited_nested :
    let record (histogram : List (Option String × Json)) : Json := .object [(some "count", nat 3),
      (some "type", text "string"), (some "selectivity", .object [(some "ne", nat 1), (some "eq", nat 0)]),
      (some "null_count", nat 0), (some "histogram", .object histogram), (some "distinct_count", nat 3)]
    let document (histogram : List (Option String × Json)) : ByteArray := (pretty (.object [(some "e_cnt", nat 0),
      (some "v_attr_stats", .object [(some "City", .object [(some "name", record histogram)])]),
      (some "v_cnt", nat 2)])).toUTF8
    ∃ p, Profile.read (document [(some "bins", .array []), (some "counts", .array [nat 7])]) = .ok p ∧
      Profile.read (document [(some "counts", .array [nat 7]), (some "made by", .object [])]) = .ok p ∧
      Profile.read (document [(some "bins", .array []), (some "counts", .array [nat 7]), (some "bins", .null)]) =
        .error .shape := by
  intro record document
  let tree (histogram : List (Option String × Json)) : Json := .object [(some "e_cnt", nat 0),
    (some "v_attr_stats", .object [(some "City", .object [(some "name", record histogram)])]), (some "v_cnt", nat 2)]
  let fields : List (Option String × Json) := [(some "bins", .array []), (some "counts", .array [nat 7])]
  have hnat (n : ℕ) : (nat n).Printable := .number (numeral_nat n)
  have hprintable : (tree fields).Printable := by
    simp [tree, record, fields, printable_object_iff, printable_array_iff, hnat, Printable.text]
  obtain ⟨p, hp⟩ : ∃ p, Profile.decode? (tree fields) = some p := Option.isSome_iff_exists.1 (by decide +kernel)
  have hparse := parse?_eq_some_iff.2 hprintable.hasText_pretty
  have hread : Profile.read (document fields) = .ok p := Profile.read_eq_ok_iff.2 ⟨_, hparse, hp⟩
  obtain ⟨j, hj, hedited⟩ := texts_of_edited.1 _ _ hread
  obtain rfl : tree fields = j := Option.some.inj (hparse.symm.trans (parse?_eq_some_iff.2 hj))
  have hplace := Part.Place.field (.field (.whole .profile) (.record (.inl rfl) "City" "name" [] [] [] [])
    [(some "e_cnt", nat 0)] [(some "v_cnt", nat 2)]) .histogram [(some "count", nat 3), (some "type", text "string"),
      (some "selectivity", .object [(some "ne", nat 1), (some "eq", nat 0)]), (some "null_count", nat 0)]
      [(some "distinct_count", nat 3)]
  obtain ⟨hkept, hlost⟩ := hedited hplace rfl
  have hdropped := hkept [(some "counts", .array [nat 7]), (some "made by", .object [])] <|
    .trans (.dropped (.list (by decide)) [] [(some "counts", .array [nat 7])])
      (.added (by decide) (printable_iff.1 (.object (by simp))) [(some "counts", .array [nat 7])] [])
  have hrepeated := hlost [(some "bins", .array []), (some "counts", .array [nat 7]), (some "bins", .null)] <|
    .repeated (by decide) (printable_iff.1 .null) fields [] (by simp [fields])
  exact ⟨p, hread, hdropped.2 _ (printable_iff.2 hdropped.1).hasText_pretty,
    hrepeated.2 _ (printable_iff.2 hrepeated.1).hasText_pretty⟩

end GraphProfile
