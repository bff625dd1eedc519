import BlockTheme.Proofs.Json.Paths
import BlockTheme.Proofs.Style.Entries

/-!
# What a style attribute depends on

The style attribute shows the values at the ends of certain paths, each as one text, and it shows
the gap; and there is one only if the groups of the style are objects where they are given. Styles
that agree in this have the same attribute (`Style.Agree.inline?_eq`). Where the single values are no
objects, a style agrees with the cleaned style, although cleaning goes by another notion of what is
empty (`Style.agree_clean`), and with every style in which the members stand in another order
(`Style.agree_of_reordered`).
-/

namespace BlockTheme

namespace Style

/-! ## Single values -/

/-- The paths to the values that are shown as one text each: those of the rows, the sides of the
boxes, and both parts of a gap. -/
def singlePaths : List (List String) :=
  rows.map (fun row => [row.1, row.2.1])
    ++ ["padding", "margin"].flatMap (fun box =>
      ["top", "right", "bottom", "left"].map fun side => ["spacing", box, side])
    ++ ["top", "left"].map fun side => ["spacing", "blockGap", side]

/-- A style whose single values are no objects. -/
def SingleValued (style : Style) : Prop :=
  ∀ path ∈ singlePaths, ∀ v ∈ (Json.object style).at? path, v.isObject = false

instance (style : Style) : Decidable style.SingleValued :=
  inferInstanceAs (Decidable (∀ path ∈ singlePaths, ∀ v ∈ (Json.object style).at? path, _))

/-- The value at the end of a path, if it is given. -/
def shown? (style : Style) (path : List String) : Option Json :=
  ((Json.object style).at? path).filter Json.isGiven

/-- A member of a group, seen as a value at a path. What is not there has no members. -/
theorem get?_membersOf (v : Option Json) (key : String) :
    (membersOf v).get? key = v.bind (·.at? [key]) := by
  rcases v with _ | v
  · rfl
  · cases v with
    | object members => exact (Json.at?_object_singleton members key).symm
    | _ => rfl

/-- The value of a property is the one at the path of two keys. What is known of paths, such as what
cleaning leaves at them, is known of properties by this. -/
theorem value?_eq_at? (style : Style) (group property : String) :
    style.value? group property = (Json.object style).at? [group, property] :=
  get?_membersOf (style.get? group) property

theorem ne_nil_of_mem_singlePaths : ∀ path ∈ singlePaths, path ≠ [] := by decide

theorem row_mem_singlePaths {row : String × String × String} (h : row ∈ rows) :
    [row.1, row.2.1] ∈ singlePaths :=
  List.mem_append_left _ (List.mem_append_left _ (List.mem_map_of_mem h))

theorem side_mem_singlePaths {box side : String} (hbox : box ∈ ["padding", "margin"])
    (hside : side ∈ ["top", "right", "bottom", "left"]) : ["spacing", box, side] ∈ singlePaths :=
  List.mem_append_left _ (List.mem_append_right _
    (List.mem_flatMap.2 ⟨box, hbox, List.mem_map_of_mem hside⟩))

/-! ## Declarations from what is shown -/

/-- The declaration of a property that shows a value. -/
def declareShown (property : String) (v : Option Json) : List Declaration :=
  (v.map fun v => (property, v.displayText)).toList

/-- The declaration of a row depends on the value at its path. -/
theorem declareRow_eq (style : Style) (row : String × String × String) :
    style.declareRow row = declareShown row.2.2 (style.shown? [row.1, row.2.1]) := by
  rw [shown?, ← value?_eq_at?]
  rfl

/-- The declarations of a box depend on the values at the paths of its sides. -/
theorem declareSides_eq (style : Style) (box : String) :
    declareSides (membersOf (style.value? "spacing" box)) box
      = ["top", "right", "bottom", "left"].flatMap fun side =>
          declareShown (box ++ "-" ++ side) (style.shown? ["spacing", box, side]) := by
  refine List.flatMap_congr fun side _ => ?_
  rw [declare, given?, get?_membersOf, value?_eq_at?, ← Json.at?_append]
  rfl

/-- A gap that is one text. -/
def gapText? : Option Json → Option String
  | some (.string s) => if s.isEmpty then none else some s
  | _ => none

/-- The text of a gap in two parts, of which either will do. -/
def joinGap? : Option Json → Option Json → Option String
  | some top, some left => some (top.displayText ++ " " ++ left.displayText)
  | some v, none | none, some v => some v.displayText
  | none, none => none

/-- The gap depends on its one text, or else on the values at the paths of its two parts. So two
styles that show the same at these paths have the same gap. -/
theorem gapValue?_eq (style : Style) :
    gapValue? (style.value? "spacing" "blockGap")
      = (gapText? (style.value? "spacing" "blockGap")).or
          (joinGap? (style.shown? ["spacing", "blockGap", "top"])
            (style.shown? ["spacing", "blockGap", "left"])) := by
  have hpart : ∀ side, style.shown? ["spacing", "blockGap", side]
      = ((style.value? "spacing" "blockGap").bind (·.at? [side])).filter Json.isGiven := by
    intro side
    rw [value?_eq_at?, ← Json.at?_append]
    rfl
  rw [hpart, hpart]
  rcases style.value? "spacing" "blockGap" with _ | gap
  · rfl
  · cases gap with
    -- a gap in parts: either, both or none of them may be given
    | object members =>
      simp only [gapValue?, gapText?, Option.bind_some, Json.at?_object_singleton, given?,
        Option.none_or]
      cases (Fields.get? members "top").filter Json.isGiven <;>
        cases (Fields.get? members "left").filter Json.isGiven <;> rfl
    | string s =>
      rw [gapValue?, gapText?]
      split <;> rfl
    | _ => rfl

/-! ## Styles that agree -/

/-- Styles that show the same single values, with gaps and groups of the same form. -/
structure Agree (a b : Style) : Prop where
  shown : ∀ path ∈ singlePaths, a.shown? path = b.shown? path
  gap : gapText? (a.value? "spacing" "blockGap") = gapText? (b.value? "spacing" "blockGap")
  groups : ∀ group ∈ groups, isGroup (a.get? group) = isGroup (b.get? group)

/-- The style attribute of any value as a style. -/
def inline? (v : Json) : Except Malformed (List (String × String)) :=
  (ofJson v).map inlineAttribute

/-- A style is malformed if a group in it is given and is no object. -/
theorem inline?_object (style : Style) :
    inline? (.object style)
      = if groups.all fun group => isGroup (style.get? group) then .ok style.inlineAttribute
        else .error .notAnObject := by
  rw [inline?, ofJson]
  split <;> rfl

namespace Agree

variable {a b : Style}

/-- Styles that agree declare the same, in the same order: what is declared is read off at fixed
paths, in a fixed order. -/
theorem declarations_eq (h : Agree a b) : a.declarations = b.declarations := by
  have hrows : ∀ row ∈ rows, a.declareRow row = b.declareRow row := fun row hrow => by
    rw [declareRow_eq, declareRow_eq, h.shown _ (row_mem_singlePaths hrow)]
  have hboxes : ["padding", "margin"].flatMap
        (fun box => declareSides (membersOf (a.value? "spacing" box)) box)
      = ["padding", "margin"].flatMap
        (fun box => declareSides (membersOf (b.value? "spacing" box)) box) := by
    refine List.flatMap_congr fun box hbox => ?_
    rw [declareSides_eq, declareSides_eq]
    exact List.flatMap_congr fun side hside => by rw [h.shown _ (side_mem_singlePaths hbox hside)]
  have hgap : gapValue? (a.value? "spacing" "blockGap")
      = gapValue? (b.value? "spacing" "blockGap") := by
    rw [gapValue?_eq, gapValue?_eq, h.gap, h.shown _ (by decide), h.shown _ (by decide)]
  -- the seven rows in front and the four behind are both parts of the table
  rw [Style.declarations_eq, Style.declarations_eq, hboxes, hgap,
    List.flatMap_congr fun row hrow => hrows row (List.mem_of_mem_take hrow),
    List.flatMap_congr fun row hrow => hrows row (List.mem_of_mem_drop hrow)]

/-- **Styles that agree have the same style attribute**, or neither has one. Attributes are made of
declarations, and these look at a style at certain paths only. -/
theorem inline?_eq (h : Agree a b) : inline? (.object a) = inline? (.object b) := by
  have hgroups : (Style.groups.all fun group => isGroup (a.get? group))
      = Style.groups.all fun group => isGroup (b.get? group) := by
    rw [Bool.eq_iff_iff, List.all_eq_true, List.all_eq_true]
    exact forall₂_congr fun group hgroup => by rw [h.groups group hgroup]
  rw [inline?_object, inline?_object, hgroups, inlineAttribute, inlineAttribute, h.declarations_eq]

end Agree

/-! ## Cleaning -/

/-- Cleaning makes no difference to what takes null and the empty text for missing, where there is
no object. -/
theorem apply_kept {α : Type} (f : Option Json → α) (hnull : f (some .null) = f none)
    (hempty : f (some (.string "")) = f none) {v : Json} (h : v.isObject = false) :
    f (Fields.kept v) = f (some v) := by
  rw [Fields.kept_of_not_isObject h]
  split
  · next hnothing =>
    rcases hnothing with rfl | rfl
    · exact hnull.symm
    · exact hempty.symm
  · rfl

/-- An object is a group whether or not something is left of it. -/
theorem isGroup_kept (v : Json) : isGroup (Fields.kept v) = isGroup (some v) := by
  cases v with
  | object members =>
    rw [Fields.kept_object]
    split <;> rfl
  | _ => exact apply_kept isGroup rfl rfl rfl

/-- A gap that is one text is there after cleaning, unless it is empty, and then it counted as
missing. -/
theorem gapText?_kept (v : Json) : gapText? (Fields.kept v) = gapText? (some v) := by
  cases v with
  | object members =>
    rw [Fields.kept_object]
    split <;> rfl
  | _ => exact apply_kept gapText? rfl rfl rfl

/-- The value at a path in a cleaned object is the one that was there, cleaned. -/
theorem at?_clean {style : Style} (h : Fields.Keyed style) {path : List String}
    (hpath : path ≠ []) :
    (Json.object style.clean).at? path = ((Json.object style).at? path).bind Fields.kept := by
  have hkeyed : (Json.object style).Keyed := h
  rw [← Fields.clean_object, Json.at?_clean hkeyed hpath]

/-- Cleaning a style does not change what is shown of it. An object in the place of a single value
would be the exception, as cleaning may empty it; and this is excluded. -/
theorem agree_clean {style : Style} (hkeyed : Fields.Keyed style) (hsingle : style.SingleValued) :
    Agree style.clean style where
  shown path hpath := by
    rw [shown?, at?_clean hkeyed (ne_nil_of_mem_singlePaths path hpath), shown?]
    cases hv : (Json.object style).at? path with
    | none => rfl
    | some v => exact apply_kept (·.filter Json.isGiven) rfl rfl (hsingle _ hpath v hv)
  gap := by
    rw [value?_eq_at?, at?_clean hkeyed (List.cons_ne_nil _ _), value?_eq_at?]
    cases (Json.object style).at? ["spacing", "blockGap"] with
    | none => rfl
    | some v => exact gapText?_kept v
  groups group _ := by
    rw [Fields.get?_clean hkeyed.nodup_keys]
    cases style.get? group with
    | none => rfl
    | some v => exact isGroup_kept v

/-! ## The order of members -/

section Order

variable {v w : Option Json} (h : Option.Rel Json.Reordered v w)
include h

/-- A value that is no object has no order in it that could be different. -/
theorem eq_of_rel_reordered (hv : ∀ x ∈ v, x.isObject = false) : v = w := by
  cases h with
  | none => rfl
  | some hvalue => rw [hvalue.eq_of_not_isObject (hv _ rfl)]

theorem isGroup_eq_of_rel_reordered : isGroup v = isGroup w := by
  cases h with
  | none => rfl
  | some hvalue => cases hvalue <;> rfl

theorem gapText?_eq_of_rel_reordered : gapText? v = gapText? w := by
  cases h with
  | none => rfl
  | some hvalue => cases hvalue <;> rfl

end Order

/-- Styles with the same members in another order agree. -/
theorem agree_of_reordered {a b : Style} (h : Json.Reordered (.object a) (.object b))
    (hkeyed : Fields.Keyed a) (hsingle : a.SingleValued) : Agree a b where
  shown path hpath := by
    rw [shown?, shown?, eq_of_rel_reordered (h.at? hkeyed path) (hsingle path hpath)]
  gap := by
    rw [value?_eq_at?, value?_eq_at?]
    exact gapText?_eq_of_rel_reordered (h.at? hkeyed _)
  groups group _ := by
    rw [← Json.at?_object_singleton, ← Json.at?_object_singleton b]
    exact isGroup_eq_of_rel_reordered (h.at? hkeyed _)

/-! ## Styles in block attributes -/

/-- A style whose groups are objects has an attribute. -/
theorem Grouped.inline?_eq {style : Style} (h : style.Grouped) :
    inline? (.object style) = .ok style.inlineAttribute := by
  rw [inline?_object, if_pos]
  rw [List.all_eq_true]
  intro group _
  cases hget : style.get? group with
  | none => rfl
  | some v =>
    obtain ⟨members, rfl⟩ := h group v hget
    rfl

/-- **The attribute of the style in block attributes is the same after cleaning these.** This is why
the style can be read off a delimiter, where attributes stand cleaned, and compared to the element.
-/
theorem inline?_get?_clean {attributes : Fields} (hkeyed : attributes.Keyed)
    (hsingle : (within attributes).SingleValued) :
    inline? ((attributes.clean.get? "style").getD .null)
      = inline? ((attributes.get? "style").getD .null) := by
  rw [Fields.get?_clean hkeyed.nodup_keys]
  cases hget : attributes.get? "style" with
  | none => rfl
  | some v =>
    cases v with
    | object style =>
      have hstyle : within attributes = style := by rw [within, hget, membersOf]
      have hclean :=
        (agree_clean (hkeyed.of_mem (Fields.mem_of_get? hget)) (hstyle ▸ hsingle)).inline?_eq
      rw [Option.bind_some, Option.getD_some, ← hclean, Fields.kept_object]
      split
      -- a style of which nothing is left is written without a style, which then counts as an empty
      -- one
      · next hnone =>
        rw [hnone]
        rfl
      · rfl
    | _ => exact apply_kept (fun v => inline? (v.getD .null)) rfl rfl rfl

/-! ## Styles of entries -/

/-- What stands in the value of an entry is no object. -/
theorem Shown.isObject_of_at? {entry : StyleEntry} (h : Shown entry) {side : String} {v : Json}
    (hv : entry.value.at? [side] = some v) : v.isObject = false := by
  cases h with
  | row _ _ | gap _ => cases hv
  | box _ hmembers =>
    rw [Json.at?_object_singleton] at hv
    obtain ⟨-, s, hs, -⟩ := hmembers _ (Fields.mem_of_get? hv)
    obtain rfl : v = .string s := hs
    rfl

/-- A style that is made of shown entries has no objects where single values belong. The objects
among the values of entries are paddings, and these stand where the sides of a box belong. -/
theorem singleValued_ofEntries {entries : List StyleEntry} (hplaces : (places entries).Nodup)
    (hshown : ∀ entry ∈ entries, Shown entry) : (ofEntries entries).SingleValued := by
  have hpart : ∀ property side,
      ∀ v ∈ (Json.object (ofEntries entries)).at? ["spacing", property, side],
        v.isObject = false := by
    intro property side v hv
    have hbind : ((ofEntries entries).value? "spacing" property).bind (·.at? [side]) = some v := by
      rw [value?_eq_at?, ← Json.at?_append]
      exact hv
    obtain ⟨w, hw, hv⟩ := Option.bind_eq_some_iff.1 hbind
    obtain ⟨entry, hin, -, -, rfl⟩ := (value?_ofEntries hplaces).1 hw
    exact (hshown entry hin).isObject_of_at? hv
  intro path hpath v hv
  simp only [singlePaths, List.mem_append, List.mem_flatMap, List.mem_map] at hpath
  -- a row, a side of a box, or a part of the gap
  rcases hpath with (⟨row, hrow, rfl⟩ | ⟨box, -, side, -, rfl⟩) | ⟨side, -, rfl⟩
  · rw [← value?_eq_at?] at hv
    obtain ⟨entry, hin, hgroup, -, rfl⟩ := (value?_ofEntries hplaces).1 hv
    cases hshown entry hin with
    | row _ _ => rfl
    | box _ _ | gap _ =>
      obtain ⟨group, property, name⟩ := row
      obtain rfl : "spacing" = group := hgroup
      exact absurd hrow not_mem_rows
  · exact hpart box side v hv
  · exact hpart "blockGap" side v hv

end Style

end BlockTheme
