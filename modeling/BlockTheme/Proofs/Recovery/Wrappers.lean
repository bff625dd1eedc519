import BlockTheme.Proofs.Html.Places
import BlockTheme.Proofs.Recovery.Containers

/-!
# Wrappers and what they hold

The containers of a markup, seen from the places in it. A wrapper is an element that has a class of
the stylesheet and a keyed leaf inside it (`IsWrapper`). In document order the wrappers are the
containers, each with its classes and with the keys inside it (`Container.Describes`), which the
index of leaves has as well; and what a wrapper inside another one holds, the other one holds too.
-/

namespace BlockTheme.Recovery

open Html (Place LiesInside tagAt? placedOf)
open LeafIndex (HasClass)

/-- A keyed leaf inside the element at a place. -/
def KeyInside (trees : List Html) (place : Place) (key : String) : Prop :=
  ∃ inner tag, LiesInside inner place ∧ tagAt? trees inner = some tag ∧ tagKey? tag = some key

/-- At a place there is an element of a wrapping kind that has a class of the stylesheet, and inside
it there is a keyed leaf. -/
def IsWrapper (trees : List Html) (defined : List String) (place : Place) : Prop :=
  ∃ tag, tagAt? trees place = some tag ∧ tag.name ∈ Container.elements
    ∧ (∃ name, HasClass defined tag name) ∧ ∃ key, KeyInside trees place key

namespace Container

/-- A container has the classes of the element at a place that the stylesheet defines, and the keys
inside it, each once. -/
structure Describes (trees : List Html) (defined : List String) (place : Place) (c : Container) :
    Prop where
  classes_ne_nil : c.classes ≠ []
  nodup_classes : c.classes.Nodup
  mem_classes_iff : ∀ name, name ∈ c.classes ↔
    ∃ tag, tagAt? trees place = some tag ∧ HasClass defined tag name
  keys_ne_nil : c.keys ≠ []
  nodup_keys : c.keys.Nodup
  mem_keys_iff : ∀ key, key ∈ c.keys ↔ KeyInside trees place key

variable {trees : List Html} {defined : List String} {place : Place} {tag : Html.Tag}

/-- The keys inside an element are those of the keyed elements at places inside its place. -/
theorem mem_tagKeys_inside (h : tagAt? trees place = some tag) {key : String} :
    key ∈ tagKeys tag.inside ↔ KeyInside trees place key := by
  rw [tagKeys, Text.mem_distinct, List.mem_filterMap]
  simp only [Html.mem_inside h]
  constructor
  · rintro ⟨leaf, ⟨inner, hinside, hat⟩, hkey⟩
    exact ⟨inner, leaf, hinside, hat, hkey⟩
  · rintro ⟨inner, leaf, hinside, hat, hkey⟩
    exact ⟨leaf, ⟨inner, hinside, hat⟩, hkey⟩

/-- The wrappers are the elements that have the parts of a container. -/
theorem isWrapper_iff : IsWrapper trees defined place ↔
    ∃ tag, tagAt? trees place = some tag ∧ (parts? defined tag).isSome := by
  have hne : ∀ names : List String, names ≠ [] ↔ ∃ name, name ∈ names := fun names =>
    ⟨List.exists_mem_of_ne_nil names, fun ⟨_, hmem⟩ => List.ne_nil_of_mem hmem⟩
  refine exists_congr fun tag => and_congr_right fun hat => ?_
  rw [isSome_parts?_iff]
  simp only [hne, LeafIndex.mem_classesOf_iff, mem_tagKeys_inside hat]

/-- What is gathered at an element describes the place of the element: its defined classes, and the
keys of the leaves below it. -/
theorem describes_of_parts? (hat : tagAt? trees place = some tag) {c : Container}
    (h : parts? defined tag = some (c.classes, c.keys)) : Describes trees defined place c := by
  obtain ⟨hclassesEq, hkeysEq, hclasses, hkeys⟩ := parts?_eq_some h
  exact
    { classes_ne_nil := hclasses
      nodup_classes := hclassesEq ▸ Text.nodup_distinct _
      mem_classes_iff := fun name => by
        rw [hclassesEq, LeafIndex.mem_classesOf_iff]
        simp [hat]
      keys_ne_nil := hkeys
      nodup_keys := hkeysEq ▸ Text.nodup_distinct _
      mem_keys_iff := fun key => by rw [hkeysEq, mem_tagKeys_inside hat] }

/-! ## Containers with their places -/

/-- The parts of the containers of a markup, with the places of their elements. -/
def placedParts (trees : List Html) (defined : List String) :
    List (Place × List String × List String) :=
  (placedOf 0 trees).filterMap fun (place, tag) => (parts? defined tag).map (place, ·)

/-- The containers of a markup with the places of their elements. -/
def placed (trees : List Html) (defined : List String) : List (Place × Container) :=
  (placedParts trees defined).zipIdx.map
    fun ((place, classes, keys), id) => (place, ⟨id, classes, keys⟩)

/-- Without their places these are the containers that the index has. -/
theorem map_snd_placed (trees : List Html) (defined : List String) :
    (placed trees defined).map Prod.snd = ofTags (Html.tagsOf trees) defined := by
  have hparts : (Html.tagsOf trees).filterMap (parts? defined)
      = (placedParts trees defined).map Prod.snd := by
    rw [← Html.map_snd_placedOf 0 trees, List.filterMap_map, placedParts, List.map_filterMap]
    simp [Function.comp_def]
  rw [ofTags, hparts, List.zipIdx_map, List.map_map, placed, List.map_map]
  rfl

/-- The places of the containers are those where an element has keys and classes. -/
theorem map_fst_placed (trees : List Html) (defined : List String) :
    (placed trees defined).map Prod.fst = (placedParts trees defined).map Prod.fst := by
  conv_rhs => rw [← List.zipIdx_map_fst 0 (placedParts trees defined)]
  rw [placed, List.map_map, List.map_map]
  rfl

/-- A container describes the place that it is put at. -/
theorem describes_of_mem_placed {c : Container} (h : (place, c) ∈ placed trees defined) :
    Describes trees defined place c := by
  obtain ⟨⟨⟨_, classes, keys⟩, id⟩, hmem, heq⟩ := List.mem_map.1 h
  obtain ⟨rfl, rfl⟩ := Prod.mk.inj heq
  obtain ⟨⟨_, tag⟩, hplaced, hparts⟩ := List.mem_filterMap.1 (List.fst_mem_of_mem_zipIdx hmem)
  obtain ⟨_, hparts, heq⟩ := Option.map_eq_some_iff.1 hparts
  obtain ⟨rfl, rfl⟩ := Prod.mk.inj heq
  exact describes_of_parts? (Html.mem_placedOf_zero.1 hplaced) hparts

/-- There is a container at a place exactly if the element there is a wrapper. One direction of what
`containers_at_wrappers` says. -/
theorem mem_map_fst_placed :
    place ∈ (placed trees defined).map Prod.fst ↔ IsWrapper trees defined place := by
  rw [map_fst_placed, isWrapper_iff, placedParts, List.map_filterMap, List.mem_filterMap]
  simp only [Prod.exists, Html.mem_placedOf_zero, Option.map_map, Option.map_eq_some_iff,
    Option.isSome_iff_exists]
  grind

theorem pairwise_placed (trees : List Html) (defined : List String) :
    (placed trees defined).Pairwise fun a b => a.1 < b.1 := by
  rw [← List.pairwise_map, map_fst_placed, List.pairwise_map, placedParts, List.pairwise_filterMap]
  refine (Html.pairwise_placedOf 0 trees).imp fun hlt a ha b hb => ?_
  obtain ⟨_, -, rfl⟩ := Option.map_eq_some_iff.1 ha
  obtain ⟨_, -, rfl⟩ := Option.map_eq_some_iff.1 hb
  exact hlt

theorem map_id_placed (trees : List Html) (defined : List String) :
    (placed trees defined).map (·.2.id) = List.range (placed trees defined).length := by
  have hids : (ofTags (Html.tagsOf trees) defined).map Container.id = List.range _ :=
    map_eq_range_of_places id_eq_of_getElem?
  rw [← map_snd_placed, List.map_map, List.length_map] at hids
  exact hids

/-- Of two containers the one that comes later has the higher number, since containers are numbered
in document order. -/
theorem id_lt_of_lt {a b : Place × Container} (ha : a ∈ placed trees defined)
    (hb : b ∈ placed trees defined) (hlt : a.1 < b.1) : a.2.id < b.2.id := by
  have hid : ∀ i (hi : i < (placed trees defined).length), (placed trees defined)[i].2.id = i := by
    intro i hi
    have hrange := congrArg (·[i]?) (map_id_placed trees defined)
    simpa [hi] using hrange
  have hrise := List.pairwise_iff_getElem.1 (pairwise_placed trees defined)
  obtain ⟨i, hi, rfl⟩ := List.mem_iff_getElem.1 ha
  obtain ⟨j, hj, rfl⟩ := List.mem_iff_getElem.1 hb
  rw [hid i hi, hid j hj]
  rcases Nat.lt_trichotomy i j with hij | rfl | hji
  · exact hij
  · exact absurd hlt (lt_irrefl _)
  · exact absurd hlt (hrise j i hj hi hji).asymm

end Container

/-- The keys inside an element that lies inside another one are inside that one too. -/
theorem KeyInside.mono {trees : List Html} {inner outer : Place} {key : String}
    (h : KeyInside trees inner key) (hinside : LiesInside inner outer) :
    KeyInside trees outer key := by
  obtain ⟨place, tag, hplace, hat, hkey⟩ := h
  exact ⟨place, tag, hplace.trans hinside, hat, hkey⟩

/-- The index of leaves has every key that is inside an element. -/
theorem KeyInside.mem_byKey {trees : List Html} {place : Place} {key : String}
    (h : KeyInside trees place key) (defined : List String) :
    key ∈ (LeafIndex.ofTags (Html.tagsOf trees) defined).byKey.map Prod.fst := by
  obtain ⟨_, tag, -, hat, hkey⟩ := h
  obtain ⟨leaf, hleaf, rfl⟩ :=
    LeafIndex.exists_leaf_of_tagKey? (Html.mem_tagsOf.2 ⟨_, hat⟩) hkey defined
  exact (LeafIndex.sound_ofTags _ defined).mem_byKey hleaf

/-- **Containers and the index of leaves fit together.** In document order the containers of a
markup stand at its wrappers, numbered from zero on, with the classes and the keys that are to be
found there, and all these keys are in the index. A container inside another one has none but keys of
that one, and a higher number. -/
theorem containers_at_wrappers (trees : List Html) (defined : List String) :
    ∃ placed : List (Place × Container),
      placed.map Prod.snd = Container.ofTags (Html.tagsOf trees) defined
        ∧ placed.Pairwise (fun a b => a.1 < b.1)
        ∧ placed.map (·.2.id) = List.range placed.length
        ∧ (∀ place, place ∈ placed.map Prod.fst ↔ IsWrapper trees defined place)
        ∧ (∀ a ∈ placed, a.2.Describes trees defined a.1 ∧ ∀ key ∈ a.2.keys,
          key ∈ (LeafIndex.ofTags (Html.tagsOf trees) defined).byKey.map Prod.fst)
        ∧ ∀ outer ∈ placed, ∀ inner ∈ placed, LiesInside inner.1 outer.1 →
          inner.2.keys ⊆ outer.2.keys ∧ outer.2.id < inner.2.id := by
  -- a container holds the keys of the leaves below its wrapper
  have hdescribes : ∀ a ∈ Container.placed trees defined, a.2.Describes trees defined a.1 :=
    fun _ ha => Container.describes_of_mem_placed ha
  refine ⟨Container.placed trees defined, Container.map_snd_placed trees defined,
    Container.pairwise_placed trees defined, Container.map_id_placed trees defined,
    fun _ => Container.mem_map_fst_placed,
    fun a ha => ⟨hdescribes a ha, fun key hkey =>
      (((hdescribes a ha).mem_keys_iff key).1 hkey).mem_byKey defined⟩,
    fun outer houter inner hinner hinside => ⟨fun key hkey => ?_, ?_⟩⟩
  -- what lies below the inner wrapper lies below the outer one
  · have hin := ((hdescribes inner hinner).mem_keys_iff key).1 hkey
    exact ((hdescribes outer houter).mem_keys_iff key).2 (hin.mono hinside)
  · exact Container.id_lt_of_lt houter hinner hinside.lt

end BlockTheme.Recovery
