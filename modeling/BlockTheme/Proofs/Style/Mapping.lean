import BlockTheme.Proofs.Html.StartTags
import BlockTheme.Proofs.Json.Cleaning
import BlockTheme.Proofs.Style.Entries

/-!
# The style object of a node

A color of a node comes from its attributes or else from its free style, and only texts count that
are not empty and hold no double quote (`usable?_eq_some_iff`). So the entries of a node are, in
another order, one for each color, the padding, and the properties of type (`StyleEntry.perm_ofNode`).
From them follow both the classes of the node and its style object, which mirror each other
(`Style.ofNode_mirrors_classes`), and all that is in the object fills its place, so that cleaning
leaves it as it is (`Style.filled_ofNode`).
-/

namespace BlockTheme

/-- A text that can be a value in a style: not empty, and without a double quote. -/
def Text.Admissible (s : String) : Prop := s ≠ "" ∧ Unquoted s

instance (s : String) : Decidable (Text.Admissible s) := inferInstanceAs (Decidable (_ ∧ _))

/-- A value can be used if all of its characters are admissible. -/
theorem usable?_eq_filter (value : Option String) :
    usable? value = value.filter fun s => Text.Admissible s := by
  refine congrArg (value.filter ·) (funext fun s => ?_)
  rw [Bool.eq_iff_iff, decide_eq_true_iff]
  simp [Text.Admissible, Text.Unquoted, quote]

theorem usable?_eq_some_iff {value : Option String} {s : String} :
    usable? value = some s ↔ value = some s ∧ Text.Admissible s := by
  rw [usable?_eq_filter, Option.filter_eq_some_iff, decide_eq_true_iff]

theorem admissible_of_or {own free : Option String} {s : String}
    (h : (usable? own).or (usable? free) = some s) : Text.Admissible s := by
  rcases Option.or_eq_some_iff.1 h with hown | ⟨-, hfree⟩
  · exact (usable?_eq_some_iff.1 hown).2
  · exact (usable?_eq_some_iff.1 hfree).2

/-! ## Entries -/

namespace StyleEntry

/-- The color of the text of a node. -/
def textColorOf (attributes : Attributes) (style : Option FreeStyle) : Option String :=
  (usable? attributes.textColor).or ((style.getD []).usable? "color")

/-- The color behind the text of a node. -/
def backgroundColorOf (attributes : Attributes) (style : Option FreeStyle) : Option String :=
  (usable? attributes.backgroundColor).or ((style.getD []).usable? "background-color")

/-- A color of the free style stands at the end, but it is the same entry. -/
theorem perm_color (own free : Option String) (make : String → StyleEntry)
    (rest : List StyleEntry) :
    ((own.map make).toList ++ rest ++ if own.isSome then [] else (free.map make).toList).Perm
      (((own.or free).map make).toList ++ rest) := by
  cases own with
  | none => exact List.perm_append_comm
  | some s => simp

/-- **The entries of a node**, in another order: its colors, its padding and its type. The order
plays no part in the values of a style, and this one is easier to look through. -/
theorem perm_ofNode (attributes : Attributes) (style : Option FreeStyle) :
    (ofNode attributes style).Perm
      (((textColorOf attributes style).map textColor).toList
        ++ (((backgroundColorOf attributes style).map backgroundColor).toList
          ++ ((attributes.padding.map fun size => padding size.padding).toList
            ++ typography (style.getD [])))) := by
  have hbackground := perm_color (usable? attributes.backgroundColor)
    ((style.getD []).usable? "background-color") backgroundColor
    ((attributes.padding.map fun size => padding size.padding).toList
      ++ typography (style.getD []))
  have htext := perm_color (usable? attributes.textColor) ((style.getD []).usable? "color")
    textColor
  refine List.Perm.trans ?_ ((htext _).trans (hbackground.append_left _))
  simp only [ofNode, List.append_assoc, List.Perm.refl]

/-- The entries of a node: a color for text and one for what is behind it, a padding, and those for
type. -/
theorem mem_ofNode {attributes : Attributes} {style : Option FreeStyle} {entry : StyleEntry} :
    entry ∈ ofNode attributes style
      ↔ (∃ s, textColorOf attributes style = some s ∧ textColor s = entry)
        ∨ (∃ s, backgroundColorOf attributes style = some s ∧ backgroundColor s = entry)
        ∨ (∃ size, attributes.padding = some size ∧ padding size.padding = entry)
        ∨ entry ∈ typography (style.getD []) := by
  simp only [(perm_ofNode attributes style).mem_iff, List.mem_append, Option.mem_toList,
    Option.map_eq_some_iff]

end StyleEntry

/-! ## What fills its place -/

/-- A value that fills its place in a style: an admissible text, or an object with members. -/
inductive Json.Fills : Json → Prop
  | text {s : String} (hs : Text.Admissible s) : Fills (.string s)
  | object {members : Fields} (hmembers : members ≠ []) : Fills (.object members)

theorem Json.Fills.speaks {v : Json} (h : v.Fills) : v.Speaks := by
  cases h with
  | text hs => exact ⟨by simpa [Json.IsNothing] using hs.1, by simp⟩
  | object hmembers => exact ⟨by simp [Json.IsNothing], by simpa using hmembers⟩

namespace Fields

/-- An object in which everything fills its place. -/
def Filled (fields : Fields) : Prop := ∀ part ∈ fields.parts, part.2.Fills

/-- A style in which everything is filled is not changed by cleaning. -/
theorem Filled.clean_eq {fields : Fields} (h : fields.Filled) : fields.clean = fields :=
  clean_eq_self fun part hpart => (h part hpart).speaks

/-- The leaves of such an object are admissible texts. -/
theorem Filled.exists_of_mem_leaves {fields : Fields} (h : fields.Filled)
    {leaf : List String × Json} (hleaf : leaf ∈ fields.leaves) :
    ∃ s, leaf.2 = .string s ∧ Text.Admissible s := by
  obtain ⟨hpart, hobject⟩ := List.mem_filter.1 hleaf
  obtain ⟨path, v⟩ := leaf
  cases h _ hpart with
  | text hs => exact ⟨_, rfl, hs⟩
  | object _ => simp [Json.isObject] at hobject

end Fields

namespace Style

/-- Putting a filled value into a filled style leaves it filled. The group that it goes into is not
empty afterwards. -/
theorem filled_put {style : Style} (h : Fields.Filled style) (group property : String) {v : Json}
    (hv : v.Fills ∧ ∀ part ∈ v.parts, part.2.Fills) :
    Fields.Filled (style.put group property v) := by
  -- the group as it is, or a new one, holds no empty part
  have hmembers : Fields.Filled (membersOf (style.get? group)) := by
    unfold membersOf
    split
    · next members hget =>
      have hinside := (Fields.inside_of_mem h (Fields.mem_of_get? hget)).2
      rwa [Fields.parts_object] at hinside
    · intro part hpart
      simp at hpart
  -- with the property in it the group is not empty either
  have hgroup : Fields.set (membersOf (style.get? group)) property v ≠ [] := by
    cases membersOf (style.get? group) with
    | nil => simp [Fields.set]
    | cons member rest =>
      rw [Fields.set]
      split <;> simp
  refine Fields.forall_parts_set h group ⟨.object hgroup, ?_⟩
  rw [Fields.parts_object]
  exact Fields.forall_parts_set hmembers property hv

theorem filled_ofEntries {entries : List StyleEntry}
    (h : ∀ entry ∈ entries, entry.value.Fills ∧ ∀ part ∈ entry.value.parts, part.2.Fills) :
    Fields.Filled (ofEntries entries) :=
  ofEntries_induction (fun _ hpart => by simp at hpart) fun _ hstyle entry hin =>
    filled_put hstyle entry.group entry.property (h entry hin)

variable (attributes : Attributes) (style : Option FreeStyle)

/-- **All that is in the style of a node fills its place.** So cleaning takes nothing out of it, and
the style is written as it is. -/
theorem filled_ofNode : Fields.Filled (Style.ofNode attributes style) := by
  rw [ofNode_eq_ofEntries]
  refine filled_ofEntries fun entry hin => ?_
  have htext : ∀ {s : String}, Text.Admissible s →
      (Json.string s).Fills ∧ ∀ part ∈ (Json.string s).parts, part.2.Fills :=
    fun hs => ⟨.text hs, by simp [Json.parts]⟩
  rcases StyleEntry.mem_ofNode.1 hin with ⟨s, hs, rfl⟩ | ⟨s, hs, rfl⟩ | ⟨size, -, rfl⟩ | htype
  · exact htext (admissible_of_or hs)
  · exact htext (admissible_of_or hs)
  · have hsize : Text.Admissible size.padding := by cases size <;> decide
    refine ⟨.object (by simp), ?_⟩
    simp [StyleEntry.padding, Fields.parts_cons, Json.parts, Json.Fills.text hsize]
  · obtain ⟨row, -, hrow⟩ := List.mem_filterMap.1 htype
    obtain ⟨s, hs, rfl⟩ := Option.map_eq_some_iff.1 hrow
    exact htext (usable?_eq_some_iff.1 hs).2

/-! ## Colors and classes -/

/-- The values for colors in the style of a node: there are two, and each is the one that counts for
the node. -/
theorem value?_color {property : String} {v : Json} :
    (Style.ofNode attributes style).value? "color" property = some v
      ↔ (property = "text" ∧ (StyleEntry.textColorOf attributes style).map .string = some v)
        ∨ property = "background"
          ∧ (StyleEntry.backgroundColorOf attributes style).map .string = some v := by
  rw [ofNode_eq_ofEntries, value?_ofEntries (nodup_places_ofNode attributes style)]
  simp only [StyleEntry.mem_ofNode, Option.map_eq_some_iff]
  constructor
  · rintro ⟨entry, hin, hgroup, hproperty, rfl⟩
    -- of the entries of a node two belong to this group
    rcases hin with ⟨s, hs, rfl⟩ | ⟨s, hs, rfl⟩ | ⟨size, -, rfl⟩ | htype
    · exact Or.inl ⟨hproperty.symm, s, hs, rfl⟩
    · exact Or.inr ⟨hproperty.symm, s, hs, rfl⟩
    · exact absurd hgroup (by simp [StyleEntry.padding])
    · obtain ⟨row, -, hrow⟩ := List.mem_filterMap.1 htype
      obtain ⟨s, -, rfl⟩ := Option.map_eq_some_iff.1 hrow
      exact absurd hgroup (by simp)
  · rintro (⟨rfl, s, hs, rfl⟩ | ⟨rfl, s, hs, rfl⟩)
    · exact ⟨.textColor s, Or.inl ⟨s, hs, rfl⟩, rfl, rfl, rfl⟩
    · exact ⟨.backgroundColor s, Or.inr (Or.inl ⟨s, hs, rfl⟩), rfl, rfl, rfl⟩

theorem value?_textColor :
    (Style.ofNode attributes style).value? "color" "text"
      = (StyleEntry.textColorOf attributes style).map .string :=
  Option.ext fun v => by simp [value?_color]

theorem value?_backgroundColor :
    (Style.ofNode attributes style).value? "color" "background"
      = (StyleEntry.backgroundColorOf attributes style).map .string :=
  Option.ext fun v => by simp [value?_color]

/-- The classes of a node, in another order: one for each of its colors. The class for a color that
comes from the free style is added last. -/
theorem perm_classesOfNode :
    (classesOfNode attributes style).Perm
      (((StyleEntry.textColorOf attributes style).map fun _ => "has-text-color").toList
        ++ ((StyleEntry.backgroundColorOf attributes style).map
          fun _ => "has-background").toList) := by
  have htype : (StyleEntry.typography (style.getD [])).filterMap (·.className) = [] := by
    refine List.filterMap_eq_nil_iff.2 fun entry hin => ?_
    obtain ⟨row, -, hrow⟩ := List.mem_filterMap.1 hin
    obtain ⟨s, -, rfl⟩ := Option.map_eq_some_iff.1 hrow
    rfl
  refine ((StyleEntry.perm_ofNode attributes style).filterMap _).trans (List.Perm.of_eq ?_)
  rw [List.filterMap_append, List.filterMap_append, List.filterMap_append, htype]
  cases StyleEntry.textColorOf attributes style <;>
    cases StyleEntry.backgroundColorOf attributes style <;> cases attributes.padding <;> rfl

/-- **The style object of a node and its classes mirror each other.** There is a class for each
color that the object has, once, and no other. A color is that of the attributes if it is admissible,
or else that of the free style if this is. All values of the object are admissible texts, and it is
clean. -/
theorem ofNode_mirrors_classes :
    (classesOfNode attributes style).Nodup
      ∧ (∀ c, c ∈ classesOfNode attributes style
          ↔ (c = "has-text-color" ∧ ((Style.ofNode attributes style).value? "color" "text").isSome)
            ∨ c = "has-background"
              ∧ ((Style.ofNode attributes style).value? "color" "background").isSome)
      ∧ (Style.ofNode attributes style).value? "color" "text"
          = ((attributes.textColor.filter (Text.Admissible ·)).or
              (((style.getD []).lookup "color").filter (Text.Admissible ·))).map .string
      ∧ (Style.ofNode attributes style).value? "color" "background"
          = ((attributes.backgroundColor.filter (Text.Admissible ·)).or
              (((style.getD []).lookup "background-color").filter (Text.Admissible ·))).map .string
      ∧ (∀ leaf ∈ Fields.leaves (Style.ofNode attributes style),
          ∃ s, leaf.2 = .string s ∧ Text.Admissible s)
      ∧ Fields.clean (Style.ofNode attributes style) = Style.ofNode attributes style := by
  -- each value was looked at before it was set, and no part is empty
  have hfilled := filled_ofNode attributes style
  refine ⟨?_, fun c => ?_, ?_, ?_, fun leaf => hfilled.exists_of_mem_leaves, hfilled.clean_eq⟩
  -- there are two classes at most, one for each color that is there
  · rw [(perm_classesOfNode attributes style).nodup_iff]
    cases StyleEntry.textColorOf attributes style <;>
      cases StyleEntry.backgroundColorOf attributes style <;> simp
  · rw [(perm_classesOfNode attributes style).mem_iff, value?_textColor, value?_backgroundColor]
    cases StyleEntry.textColorOf attributes style <;>
      cases StyleEntry.backgroundColorOf attributes style <;> simp
  · rw [value?_textColor, StyleEntry.textColorOf, FreeStyle.usable?, usable?_eq_filter,
      usable?_eq_filter]
  · rw [value?_backgroundColor, StyleEntry.backgroundColorOf, FreeStyle.usable?, usable?_eq_filter,
      usable?_eq_filter]

/-- Attributes with a color that is not admissible, and one that is. -/
def quotedColor : Attributes :=
  { textColor := some (String.ofList [quote]), backgroundColor := some "red" }

/-- With such attributes the text takes its color from the free style, and its class stands last. -/
theorem ofNode_mirrors_classes_quotedColor :
    let style := some [("background-color", "white"), ("color", "blue")]
    (["color", "text"], .string "blue") ∈ Fields.leaves (Style.ofNode quotedColor style)
      ∧ classesOfNode quotedColor style = ["has-background", "has-text-color"]
      ∧ (classesOfNode quotedColor style).Nodup
      ∧ (Style.ofNode quotedColor style).value? "color" "text" = some (.string "blue")
      ∧ (Style.ofNode quotedColor style).value? "color" "background" = some (.string "red")
      ∧ (∃ s, Json.string "blue" = .string s ∧ Text.Admissible s)
      ∧ Fields.clean (Style.ofNode quotedColor style) = Style.ofNode quotedColor style := by
  intro style
  obtain ⟨hnodup, -, htext, hbackground, hleaves, hclean⟩ :=
    ofNode_mirrors_classes quotedColor style
  -- the attribute is refused for its quote, and the map gives the color
  have hleaf : (["color", "text"], .string "blue")
      ∈ Fields.leaves (Style.ofNode quotedColor style) := by
    have hall : Fields.leaves (Style.ofNode quotedColor style)
        = [(["color", "background"], .string "red"), (["color", "text"], .string "blue")] := rfl
    simp [hall]
  exact ⟨hleaf, by decide, hnodup, htext, hbackground, hleaves _ hleaf, hclean⟩

end Style

end BlockTheme
