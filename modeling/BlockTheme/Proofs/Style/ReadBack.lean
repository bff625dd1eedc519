import BlockTheme.Html.Reference
import BlockTheme.Proofs.Style.Agreement
import BlockTheme.Proofs.Style.Mapping
import BlockTheme.Proofs.Text.Marks
import Mathlib.Data.List.Perm.Basic
import Mathlib.Data.Option.Basic

/-!
# Reading style attributes

What a style object says is a list of declarations, one for each of its values (`Style.perm_said`),
in the order of `Style.properties`, and the style attribute of a node is made from this list
(`Style.declarations_eq_said`). But the values go into the attribute as they are: a semicolon in a
value ends its declaration, and what looks like a character reference is replaced when the attribute
is read. So the attribute is read back as what the object says exactly if there is neither
(`Style.readBack_ofNode_iff`).
-/

namespace BlockTheme

namespace Style

/-! ## What a style says -/

/-- Where the values of a style stand, and the properties that declare them, in order. -/
def properties : List (List String × String) :=
  (rows.take 7).map (fun row => ([row.1, row.2.1], row.2.2))
    ++ ["padding", "margin"].flatMap (fun box => ["top", "right", "bottom", "left"].map
      fun side => (["spacing", box, side], box ++ "-" ++ side))
    ++ [(["spacing", "blockGap"], "gap")]
    ++ (rows.drop 7).map fun row => ([row.1, row.2.1], row.2.2)

/-- The declaration of a text at a place. -/
def said? (style : Style) (place : List String × String) : Option Declaration :=
  match (Json.object style).at? place.1 with
  | some (.string s) => some (place.2, s)
  | _ => none

/-- What the texts of a style declare, in the order of the properties. -/
def said (style : Style) : List Declaration := properties.filterMap style.said?

/-- What a value at the end of a path declares, if it is a text at one of the places. -/
def declaration? (leaf : List String × Json) : Option Declaration :=
  match properties.lookup leaf.1, leaf.2 with
  | some property, .string s => some (property, s)
  | _, _ => none

/-- What a style says is found at the paths of properties, as texts, be it a property with one
place, a side of a box, or the gap. -/
theorem mem_said {style : Style} {d : Declaration} :
    d ∈ style.said
      ↔ ∃ path, (path, d.1) ∈ properties ∧ (Json.object style).at? path = some (.string d.2) := by
  obtain ⟨property, value⟩ := d
  have hsaid : ∀ place : List String × String, style.said? place = some (property, value)
      ↔ place.2 = property ∧ (Json.object style).at? place.1 = some (.string value) := by
    intro place
    unfold said?
    split
    · next s hs => simp [hs]
    · next hno => exact iff_of_false (by simp) fun h => hno value h.2
  simp only [said, List.mem_filterMap, hsaid]
  constructor
  · rintro ⟨⟨path, _⟩, hin, rfl, hvalue⟩
    exact ⟨path, hin, hvalue⟩
  · rintro ⟨path, hin, hvalue⟩
    exact ⟨(path, property), hin, rfl, hvalue⟩

/-- A leaf is a declaration if its path is that of a property and its value a text. No path stands
for two properties. -/
theorem declaration?_eq_some_iff {leaf : List String × Json} {d : Declaration} :
    declaration? leaf = some d ↔ (leaf.1, d.1) ∈ properties ∧ leaf.2 = .string d.2 := by
  obtain ⟨path, v⟩ := leaf
  obtain ⟨property, value⟩ := d
  have hlookup : properties.lookup path = some property ↔ (path, property) ∈ properties := by
    have hall : ∀ place ∈ properties, properties.lookup place.1 = some place.2 := by decide
    refine ⟨fun h => ?_, hall (path, property)⟩
    obtain ⟨front, back, hproperties, -⟩ := List.lookup_eq_some_iff.1 h
    rw [hproperties]
    simp
  rw [← hlookup]
  unfold declaration?
  split
  · next found s hfound hs => simp_all
  · next hno => exact iff_of_false (by simp) fun h => hno property value h.1 h.2

/-- What a style says is said in the order of the properties, each once at most. -/
theorem sublist_properties (style : Style) :
    (style.said.map Prod.fst).Sublist (properties.map Prod.snd) := by
  unfold said
  induction properties with
  | nil => exact List.Sublist.refl _
  | cons place rest ih =>
    rw [List.map_cons, List.filterMap_cons]
    split
    · exact ih.cons place.2
    · next d hd =>
      have hproperty : d.1 = place.2 := by
        unfold said? at hd
        split at hd
        · rw [← Option.some.inj hd]
        · simp at hd
      rw [List.map_cons, hproperty]
      exact ih.cons_cons place.2

/-- Nothing is said twice, as the paths are different. -/
theorem nodup_said (style : Style) : style.said.Nodup :=
  (style.sublist_properties.nodup (by decide)).of_map _

/-- A property declares one place, and no place is the whole style. -/
theorem properties_injective :
    ∀ a ∈ properties, a.1 ≠ [] ∧ ∀ b ∈ properties, a.2 = b.2 → a.1 = b.1 := by decide

/-- **What a style says is one declaration for each of its values**, if these are texts at places
that properties declare. -/
theorem perm_said {style : Style} (hkeyed : Fields.Keyed style)
    (hleaves : ∀ leaf ∈ Fields.leaves style, (declaration? leaf).isSome) :
    ((Fields.leaves style).map declaration?).Perm (style.said.map some) := by
  -- a property has one place in the record, so that no two leaves give one declaration
  have hnodup : ((Fields.leaves style).map declaration?).Nodup := by
    refine List.Nodup.map_on (fun a ha b hb heq => ?_) (Fields.nodup_leaves hkeyed).of_map
    obtain ⟨d, hd⟩ := Option.isSome_iff_exists.1 (hleaves a ha)
    obtain ⟨hplace, hvalue⟩ := declaration?_eq_some_iff.1 hd
    obtain ⟨hplace', hvalue'⟩ := declaration?_eq_some_iff.1 (heq ▸ hd)
    exact Prod.ext ((properties_injective _ hplace).2 _ hplace' rfl) (hvalue.trans hvalue'.symm)
  -- neither list repeats an entry, so that only membership is left to compare
  refine (List.perm_ext_iff_of_nodup hnodup
    (style.nodup_said.map (Option.some_injective _))).2 fun x => ?_
  simp only [List.mem_map]
  constructor
  · rintro ⟨⟨path, v⟩, hleaf, rfl⟩
    obtain ⟨d, hd⟩ := Option.isSome_iff_exists.1 (hleaves _ hleaf)
    obtain ⟨hplace, hvalue⟩ := declaration?_eq_some_iff.1 hd
    obtain ⟨key, rest, rfl⟩ := List.exists_cons_of_ne_nil (properties_injective _ hplace).1
    refine ⟨d, mem_said.2 ⟨_, hplace, ?_⟩, hd.symm⟩
    rw [((Fields.mem_leaves_iff hkeyed).1 hleaf).1, ← hvalue]
  · rintro ⟨d, hd, rfl⟩
    obtain ⟨path, hplace, hvalue⟩ := mem_said.1 hd
    obtain ⟨key, rest, rfl⟩ := List.exists_cons_of_ne_nil (properties_injective _ hplace).1
    exact ⟨_, (Fields.mem_leaves_iff hkeyed).2 ⟨hvalue, rfl⟩,
      declaration?_eq_some_iff.2 ⟨hplace, rfl⟩⟩

/-! ## Reading an attribute -/

/-- A part of a style attribute, cut at its first colon. -/
def readDeclaration? (part : List Char) : Option Declaration :=
  match part.dropWhile (· ≠ ':') with
  | [] => none
  | _ :: value => some (String.ofList (part.takeWhile (· ≠ ':')), String.ofList value)

/-- The declarations in a style attribute: its references are replaced, and the text is cut at
semicolons. -/
def readBack (attributes : List (String × String)) : List (Option Declaration) :=
  match attributes with
  | [] => []
  | (_, text) :: _ => (Text.splitAt ';' (Html.unescape text.toList)).map readDeclaration?

/-- The text of a declaration. -/
def written (d : Declaration) : List Char := d.1.toList ++ ':' :: d.2.toList

/-- A part is read as a declaration exactly if it is written as one whose name has no colon in it:
the first colon ends the name. -/
theorem readDeclaration?_eq_some_iff {part : List Char} {d : Declaration} :
    readDeclaration? part = some d ↔ ':' ∉ d.1.toList ∧ part = written d := by
  obtain ⟨property, value⟩ := d
  unfold readDeclaration? written
  constructor
  · intro h
    split at h
    · simp at h
    · next c rest hrest =>
      obtain ⟨rfl, rfl⟩ := Prod.mk.inj (Option.some.inj h)
      -- reading stops at a colon, the first one
      have hcolon : c = ':' := by
        have hstop := List.head?_dropWhile_not (fun c => decide (c ≠ ':')) part
        rw [hrest] at hstop
        simpa using hstop
      subst hcolon
      rw [String.toList_ofList, String.toList_ofList, ← hrest, List.takeWhile_append_dropWhile]
      exact ⟨fun hmem => by simpa using List.mem_takeWhile_imp hmem, rfl⟩
  · rintro ⟨hcolon, rfl⟩
    have hproperty : ∀ c ∈ property.toList, decide (c ≠ ':') = true := fun c hc => by
      rw [decide_eq_true_iff]
      rintro rfl
      exact hcolon hc
    rw [List.dropWhile_append_of_pos hproperty, List.takeWhile_append_of_pos hproperty]
    simp

/-- Parts that are read as declarations are their texts, so the read-back of an attribute comes down
to how it is cut into parts. -/
theorem map_readDeclaration?_eq {parts : List (List Char)} {found : List Declaration} :
    parts.map readDeclaration? = found.map some
      ↔ (∀ d ∈ found, ':' ∉ d.1.toList) ∧ parts = found.map written := by
  induction found generalizing parts with
  | nil => simp
  | cons d rest ih =>
    cases parts with
    | nil => simp
    | cons part parts =>
      simp only [List.map_cons, List.cons.injEq, readDeclaration?_eq_some_iff, ih,
        List.forall_mem_cons]
      tauto

/-- No separator stands in the name of a property. -/
theorem not_mem_of_mem_declarations {style : Style} {d : Declaration}
    (h : d ∈ style.declarations) : ':' ∉ d.1.toList ∧ ';' ∉ d.1.toList := by
  have hnames : ∀ name ∈ propertyNames, ':' ∉ name.toList ∧ ';' ∉ name.toList := by decide
  exact hnames _ (fst_of_mem_declarations h)

/-- The style attribute is missing, or it is the declarations with semicolons between them. -/
theorem inlineAttribute_cases (style : Style) :
    (style.declarations = [] ∧ style.inlineAttribute = [])
      ∨ style.declarations ≠ [] ∧ ∃ text : String, style.inlineAttribute = [("style", text)]
        ∧ text.toList = [';'].intercalate (style.declarations.map written) := by
  unfold inlineAttribute
  split
  · next hnone => exact Or.inl ⟨hnone, rfl⟩
  · next hsome =>
    refine Or.inr ⟨hsome, _, rfl, ?_⟩
    rw [String.toList_intercalate, List.map_map]
    exact congrArg _ (List.map_congr_left fun d _ => by simp [written])

/-- **A style attribute is read back as the declarations that it was made of** exactly if no
semicolon stands in their values and nothing in it is replaced as a character reference. -/
theorem readBack_inlineAttribute_iff (style : Style) :
    readBack style.inlineAttribute = style.declarations.map some
      ↔ (∀ d ∈ style.declarations, ';' ∉ d.2.toList)
        ∧ ∀ a ∈ style.inlineAttribute, Html.unescape a.2.toList = a.2.toList := by
  rcases style.inlineAttribute_cases with ⟨hnone, hattribute⟩ | ⟨hsome, text, hattribute, htext⟩
  · simp [hnone, hattribute, readBack]
  · have hcolons : ∀ d ∈ style.declarations, ':' ∉ d.1.toList :=
      fun d hd => (not_mem_of_mem_declarations hd).1
    rw [hattribute, List.forall_mem_singleton, readBack, map_readDeclaration?_eq,
      and_iff_right hcolons]
    constructor
    -- if the parts are the declarations, then no value was cut and the text was not changed
    · intro hparts
      have hjoin : Html.unescape text.toList = text.toList := by
        rw [← Text.intercalate_splitAt ';' (Html.unescape text.toList), hparts, htext]
      refine ⟨fun d hd hmem => ?_, hjoin⟩
      have hpart : written d ∈ Text.splitAt ';' (Html.unescape text.toList) :=
        hparts ▸ List.mem_map_of_mem hd
      exact Text.not_mem_of_mem_splitAt hpart (by simp [written, hmem])
    -- conversely each declaration is one part
    · rintro ⟨hvalues, hjoin⟩
      have hwhole : ∀ part ∈ style.declarations.map written, Text.splitAt ';' part = [part] := by
        rw [List.forall_mem_map]
        intro d hd
        refine Text.splitAt_of_not_mem ?_
        simp [written, (not_mem_of_mem_declarations hd).2, hvalues d hd]
      rw [hjoin, htext, Text.splitAt_intercalate ';' (by simpa using hsome),
        List.flatMap_congr hwhole, List.flatMap_singleton']

/-! ## The declarations of a style of texts -/

/-- A style with texts at the places that properties declare, none of them empty. -/
def Textual (style : Style) : Prop :=
  ∀ place ∈ properties, ∀ v ∈ (Json.object style).at? place.1, ∃ s, v = .string s ∧ s ≠ ""

/-- In a style of texts what is declared for a place is what is said there. -/
theorem Textual.declareShown_eq {style : Style} (h : style.Textual) {place : List String × String}
    (hplace : place ∈ properties) :
    declareShown place.2 (style.shown? place.1) = (style.said? place).toList := by
  unfold shown? said?
  cases hvalue : (Json.object style).at? place.1 with
  | none => rfl
  | some v =>
    obtain ⟨s, rfl, hs⟩ := h place hplace v hvalue
    have hgiven : (Json.string s).isGiven = true := by simpa [Json.isGiven] using hs
    rw [Option.filter_some_pos hgiven, declareShown, Option.map_some, displayText_string]

theorem Textual.gap_eq {style : Style} (h : style.Textual) :
    ((gapValue? (style.value? "spacing" "blockGap")).map fun v => ("gap", v)).toList
      = (style.said? (["spacing", "blockGap"], "gap")).toList := by
  rw [value?_eq_at?, said?]
  cases hvalue : (Json.object style).at? ["spacing", "blockGap"] with
  | none => rfl
  | some v =>
    obtain ⟨s, rfl, hs⟩ := h (["spacing", "blockGap"], "gap") (by decide) v hvalue
    simp [gapValue?, hs]

/-- **A style of texts declares what it says.** Place by place: the text at the path is the value
that is declared for the property, and nothing is declared where there is none. -/
theorem declarations_eq_said {style : Style} (h : style.Textual) :
    style.declarations = style.said := by
  -- a row of the table with one place
  have hrow : ∀ row ∈ rows,
      style.declareRow row = (style.said? ([row.1, row.2.1], row.2.2)).toList := by
    have hplaces : ∀ row ∈ rows, ([row.1, row.2.1], row.2.2) ∈ properties := by decide
    intro row hin
    rw [declareRow_eq, ← h.declareShown_eq (hplaces row hin)]
  -- and the two boxes with their four sides
  have hbox : ∀ box ∈ ["padding", "margin"],
      declareSides (membersOf (style.value? "spacing" box)) box
        = ["top", "right", "bottom", "left"].flatMap fun side =>
            (style.said? (["spacing", box, side], box ++ "-" ++ side)).toList := by
    have hplaces : ∀ box ∈ ["padding", "margin"], ∀ side ∈ ["top", "right", "bottom", "left"],
        (["spacing", box, side], box ++ "-" ++ side) ∈ properties := by decide
    intro box hbox
    rw [declareSides_eq]
    exact List.flatMap_congr fun side hside => h.declareShown_eq (hplaces box hbox side hside)
  rw [declarations_eq, said, properties, List.filterMap_eq_flatMap_toList, List.flatMap_append,
    List.flatMap_append, List.flatMap_append, List.flatMap_map, List.flatMap_map, h.gap_eq,
    List.flatMap_congr fun row hin => hrow row (List.mem_of_mem_take hin),
    List.flatMap_congr fun row hin => hrow row (List.mem_of_mem_drop hin),
    List.flatMap_congr hbox, List.flatMap_assoc]
  simp only [List.flatMap_map, List.flatMap_singleton]

/-! ## Styles of nodes -/

variable (attributes : Attributes) (style : Option FreeStyle)

theorem keyed_ofNode : Fields.Keyed (Style.ofNode attributes style) :=
  (regular_ofEntries (P := fun _ => True) fun _ hin => (ofNode_of_mem hin).regular).1

/-- No object stands where a property is declared, in the style of a node. -/
theorem isObject_of_mem_properties {place : List String × String} (hplace : place ∈ properties)
    {v : Json} (hv : (Json.object (Style.ofNode attributes style)).at? place.1 = some v) :
    v.isObject = false := by
  have hplaces : ∀ place ∈ properties,
      place.1 ∈ singlePaths ∨ place.1 = ["spacing", "blockGap"] := by decide
  have hentries := nodup_places_ofNode attributes style
  rcases hplaces place hplace with hsingle | hgap
  · exact singleValued_ofEntries hentries (fun _ hin => (ofNode_of_mem hin).shown) _ hsingle v hv
  · rw [hgap, ← value?_eq_at?, ofNode_eq_ofEntries] at hv
    -- no entry of a node sets a gap
    obtain ⟨entry, hin, hgroup, hproperty, -⟩ := (value?_ofEntries hentries).1 hv
    cases ofNode_of_mem hin with
    | typography _ _ => simp at hgroup
    | _ => simp [StyleEntry.textColor, StyleEntry.backgroundColor, StyleEntry.padding] at hproperty

theorem textual_ofNode : (Style.ofNode attributes style).Textual := by
  intro place hplace v hv
  have hobject := isObject_of_mem_properties attributes style hplace hv
  obtain ⟨key, rest, hpath⟩ := List.exists_cons_of_ne_nil (properties_injective _ hplace).1
  rw [hpath] at hv
  have hpart := (Fields.mem_parts_iff (keyed_ofNode attributes style)).2 hv
  cases filled_ofNode attributes style _ hpart with
  | text hs => exact ⟨_, rfl, hs.1⟩
  | object _ => simp [Json.isObject] at hobject

/-- A path that goes on leads nowhere in a text. -/
theorem eq_nil_of_at?_string {s : String} {path : List String} {v : Json}
    (h : (Json.string s).at? path = some v) : path = [] := by
  cases path with
  | nil => rfl
  | cons key rest => cases h

/-- Where the values of an entry of a node stand: a text in the place of its property, and a padding
in the four sides of a box. -/
theorem OfNode.mem_places {entry : StyleEntry} (h : OfNode entry) {path : List String} {v : Json}
    (hv : entry.value.at? path = some v) (hobject : v.isObject = false) :
    entry.group :: entry.property :: path ∈ properties.map Prod.fst := by
  have htype : ∀ row ∈ StyleEntry.typographyProperties,
      ["typography", row.2] ∈ properties.map Prod.fst := by decide
  have hcolors : ∀ key ∈ ["text", "background"], ["color", key] ∈ properties.map Prod.fst := by
    decide
  have hsides : ∀ side ∈ ["top", "right", "bottom", "left"],
      ["spacing", "padding", side] ∈ properties.map Prod.fst := by decide
  cases h with
  | textColor _ =>
    obtain rfl := eq_nil_of_at?_string hv
    exact hcolors "text" (by simp)
  | backgroundColor _ =>
    obtain rfl := eq_nil_of_at?_string hv
    exact hcolors "background" (by simp)
  | typography hrow _ =>
    obtain rfl := eq_nil_of_at?_string hv
    exact htype _ hrow
  -- the padding is an object, and its sides are the leaves
  | padding size =>
    cases path with
    | nil =>
      obtain rfl := Option.some.inj hv
      simp [StyleEntry.padding, Json.isObject] at hobject
    | cons side rest =>
      obtain ⟨w, hw, hv⟩ := Option.bind_eq_some_iff.1 hv
      obtain ⟨name, hname, heq⟩ := List.mem_map.1 (Fields.mem_of_get? hw)
      obtain ⟨rfl, rfl⟩ := Prod.mk.inj heq
      obtain rfl := eq_nil_of_at?_string hv
      exact hsides _ hname

/-- The values in the style of a node stand at places that properties declare. So nothing that the
style holds goes unsaid. -/
theorem mem_places_of_mem_leaves {path : List String} {v : Json}
    (h : (path, v) ∈ Fields.leaves (Style.ofNode attributes style)) :
    path ∈ properties.map Prod.fst := by
  have hkeyed := keyed_ofNode attributes style
  obtain ⟨key, rest, rfl, -⟩ := Fields.head_mem_keys (List.mem_filter.1 h).1
  obtain ⟨hv, hobject⟩ := (Fields.mem_leaves_iff hkeyed).1 h
  cases rest with
  -- the members of a style are groups, so no leaf is at their level
  | nil =>
    rw [Json.at?_object_singleton, ofNode_eq_ofEntries] at hv
    obtain ⟨members, rfl⟩ := grouped_ofEntries _ key v hv
    simp [Json.isObject] at hobject
  | cons property rest =>
    have hpath : key :: property :: rest = [key, property] ++ rest := rfl
    rw [hpath, Json.at?_append, ← value?_eq_at?, ofNode_eq_ofEntries] at hv
    obtain ⟨w, hw, hv⟩ := Option.bind_eq_some_iff.1 hv
    -- below a group stands the value of an entry, which is known to have its places in the table
    obtain ⟨entry, hin, rfl, rfl, rfl⟩ :=
      (value?_ofEntries (nodup_places_ofNode attributes style)).1 hw
    exact (ofNode_of_mem hin).mem_places hv hobject

theorem isSome_declaration? :
    ∀ leaf ∈ Fields.leaves (Style.ofNode attributes style), (declaration? leaf).isSome := by
  intro leaf hleaf
  obtain ⟨s, hs, -⟩ := (filled_ofNode attributes style).exists_of_mem_leaves hleaf
  obtain ⟨⟨_, property⟩, hplace, rfl⟩ := List.mem_map.1 (mem_places_of_mem_leaves _ _ hleaf)
  exact Option.isSome_iff_exists.2 ⟨(property, s), declaration?_eq_some_iff.2 ⟨hplace, hs⟩⟩

/-- **Reading back the style attribute of a node.** What the style object of a node says is one
declaration for each of its values, in the order of the properties. The style attribute, with its
character references replaced and cut at semicolons and colons, is read back as just this exactly if
no value holds a semicolon and nothing in the attribute is replaced as a reference. -/
theorem readBack_ofNode_iff :
    ((Fields.leaves (Style.ofNode attributes style)).map declaration?).Perm
        ((Style.ofNode attributes style).said.map some)
      ∧ (readBack (Style.ofNode attributes style).inlineAttribute
            = (Style.ofNode attributes style).said.map some
          ↔ (∀ d ∈ (Style.ofNode attributes style).said, ';' ∉ d.2.toList)
            ∧ ∀ a ∈ (Style.ofNode attributes style).inlineAttribute,
                Html.unescape a.2.toList = a.2.toList) := by
  refine ⟨perm_said (keyed_ofNode attributes style) (isSome_declaration? attributes style), ?_⟩
  rw [← declarations_eq_said (textual_ofNode attributes style)]
  exact readBack_inlineAttribute_iff _

example : readBack (Style.ofNode { textColor := some "red;top:0" } none).inlineAttribute
    = [some ("color", "red"), some ("top", "0")] := rfl

end Style

end BlockTheme
