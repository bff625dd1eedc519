import BlockTheme.Proofs.Json.Parts
import BlockTheme.Style.Mapping

/-!
# Style objects from entries

A style object that is put together from entries for different properties has just the values of
these entries: at their places (`Style.value?_ofEntries`), as its texts
(`Style.mem_texts_ofEntries`), and, as far as they are shown, in the declarations of the style
attribute (`Style.beginsIn_declarations`). The style of a node is made of such entries
(`Style.nodup_places_ofNode`).
-/

namespace BlockTheme

namespace Style

/-! ## Values by group and property -/

/-- The value of a property of a group. -/
def value? (style : Style) (group property : String) : Option Json :=
  Fields.get? (membersOf (style.get? group)) property

/-- A style whose groups are objects. -/
def Grouped (style : Style) : Prop :=
  ∀ group v, style.get? group = some v → ∃ members, v = .object members

theorem grouped_nil : Grouped [] := by
  intro group v h
  simp [Fields.get?] at h

/-- A value is always put into a group that is an object. -/
theorem Grouped.put {style : Style} (h : style.Grouped) (group property : String) (v : Json) :
    (style.put group property v).Grouped := by
  intro other w hw
  rw [Style.put, Fields.get?_set] at hw
  split at hw
  · exact ⟨_, (Option.some.inj hw).symm⟩
  · exact h other w hw

/-- Putting a value changes it at its place, and no other value. -/
theorem value?_put (style : Style) (group property : String) (v : Json)
    (group' property' : String) :
    (style.put group property v).value? group' property'
      = if group' = group ∧ property' = property then some v
        else style.value? group' property' := by
  rw [value?, Style.put, Fields.get?_set]
  by_cases hgroup : group' = group
  · subst hgroup
    simp [membersOf, Fields.get?_set, value?]
  · simp [hgroup, value?]

/-- Putting the value of a new property adds its texts. The property is new, so no text of an old
value goes. -/
theorem mem_texts_put {style : Style} (hgroups : style.Grouped) {group property : String}
    (hnew : style.value? group property = none) (v : Json) (s : String) :
    s ∈ Fields.texts (style.put group property v) ↔ s ∈ Fields.texts style ∨ s ∈ v.texts := by
  -- in the group the new member adds its texts
  have hmembers : ∀ s, s ∈ Fields.texts (Fields.set (membersOf (style.get? group)) property v)
      ↔ s ∈ Fields.texts (membersOf (style.get? group)) ∨ s ∈ v.texts :=
    Fields.mem_texts_set fun old hold => by
      rw [value?] at hnew
      simp [hnew] at hold
  -- and the group with the new member has all the texts that the group had
  have hold : ∀ old, Fields.get? style group = some old →
      old.texts ⊆ (Json.object (Fields.set (membersOf (style.get? group)) property v)).texts := by
    intro old hget s hs
    obtain ⟨members, rfl⟩ := hgroups group old hget
    rw [Json.texts_object, hmembers, hget]
    exact Or.inl hs
  rw [Style.put, Fields.mem_texts_set hold, Json.texts_object, hmembers]
  cases hget : style.get? group with
  | none => simp [membersOf]
  | some old =>
    obtain ⟨members, rfl⟩ := hgroups group old hget
    have hin : s ∈ Fields.texts members → s ∈ Fields.texts style :=
      fun hs => Fields.mem_texts.2 ⟨_, Fields.mem_of_get? hget, hs⟩
    simp only [membersOf]
    tauto

/-- The keys that appear are the group, the property and those in the value. -/
theorem mem_names_of_put {style : Style} {group property : String} {v : Json} {name : String}
    (h : name ∈ Fields.names (style.put group property v)) :
    name ∈ Fields.names style ∨ name = group ∨ name = property ∨ name ∈ v.names := by
  rcases Fields.mem_names_of_set h with hold | rfl | hnew
  · exact Or.inl hold
  · exact Or.inr (Or.inl rfl)
  · rw [Json.names_object] at hnew
    rcases Fields.mem_names_of_set hnew with hold | hplace
    · cases hget : style.get? group with
      | none => simp [hget, membersOf] at hold
      | some old =>
        rw [hget] at hold
        cases old with
        | object members =>
          exact Or.inl (Fields.mem_names.2 ⟨_, Fields.mem_of_get? hget, Or.inr hold⟩)
        | _ => simp [membersOf] at hold
    · exact Or.inr (Or.inr hplace)

/-! ## Entries -/

/-- Where entries stand in a style object. -/
def places (entries : List StyleEntry) : List (String × String) :=
  entries.map fun entry => (entry.group, entry.property)

/-- A style with one more entry. -/
def putEntry (found : Style) (entry : StyleEntry) : Style :=
  found.put entry.group entry.property entry.value

/-- The style object of entries. -/
def ofEntries (entries : List StyleEntry) : Style := entries.foldl putEntry []

/-- A node's style is such a style object, by definition. -/
theorem ofNode_eq_ofEntries (attributes : Attributes) (style : Option FreeStyle) :
    Style.ofNode attributes style = ofEntries (StyleEntry.ofNode attributes style) := rfl

/-- What putting entries in new and different places makes of a style: its texts are the old ones
and those of the entries, and each entry is found in its place. By induction on the entries. -/
theorem foldl_put {entries : List StyleEntry} {style : Style} (hgroups : style.Grouped)
    (hnew : ∀ entry ∈ entries, style.value? entry.group entry.property = none)
    (hplaces : (places entries).Nodup) :
    (∀ s, s ∈ Fields.texts (entries.foldl putEntry style)
      ↔ s ∈ Fields.texts style ∨ ∃ entry ∈ entries, s ∈ entry.value.texts)
    ∧ ∀ group property v, (entries.foldl putEntry style).value? group property = some v
      ↔ style.value? group property = some v
        ∨ ∃ entry ∈ entries, entry.group = group ∧ entry.property = property
          ∧ entry.value = v := by
  induction entries generalizing style with
  | nil => simp
  | cons entry rest ih =>
    rw [places, List.map_cons, List.nodup_cons] at hplaces
    obtain ⟨hhead, hrest⟩ := List.forall_mem_cons.1 hnew
    -- the places of the rest stay free when the first entry is put
    have hother : ∀ other ∈ rest,
        ¬(other.group = entry.group ∧ other.property = entry.property) := by
      rintro other hin ⟨hgroup, hproperty⟩
      exact hplaces.1 (List.mem_map.2 ⟨other, hin, by rw [hgroup, hproperty]⟩)
    -- what the induction hypothesis asks of the style with the first entry
    have hput : (putEntry style entry).Grouped :=
      hgroups.put entry.group entry.property entry.value
    have hvalue : ∀ group property, (putEntry style entry).value? group property
        = if group = entry.group ∧ property = entry.property then some entry.value
          else style.value? group property :=
      value?_put style entry.group entry.property entry.value
    obtain ⟨htexts, hvalues⟩ := ih hput
      (fun other hin => by rw [hvalue, if_neg (hother other hin), hrest other hin]) hplaces.2
    constructor
    · intro s
      have htext : s ∈ Fields.texts (putEntry style entry) ↔ _ :=
        mem_texts_put hgroups hhead entry.value s
      rw [List.foldl_cons, htexts, htext]
      simp [or_assoc]
    · intro group property v
      rw [List.foldl_cons, hvalues, hvalue]
      by_cases hplace : group = entry.group ∧ property = entry.property
      · obtain ⟨rfl, rfl⟩ := hplace
        simp [hhead]
      · simp only [hplace, if_false, List.mem_cons, exists_eq_or_imp]
        have hself : ¬(entry.group = group ∧ entry.property = property ∧ entry.value = v) :=
          fun h => hplace ⟨h.1.symm, h.2.1.symm⟩
        simp [hself]

/-- **The texts of a style are those of its entries.** None of them is lost, as the entries have
different places and so no value replaces another one. -/
theorem mem_texts_ofEntries {entries : List StyleEntry} (hplaces : (places entries).Nodup)
    (s : String) :
    s ∈ Fields.texts (ofEntries entries) ↔ ∃ entry ∈ entries, s ∈ entry.value.texts := by
  have h := (foldl_put grouped_nil (fun _ _ => rfl) hplaces).1 s
  simpa [ofEntries] using h

/-- **The value of a style at a place is that of the entry at this place.** Different places matter
here as well: of two entries at one place the later one would count. -/
theorem value?_ofEntries {entries : List StyleEntry} (hplaces : (places entries).Nodup)
    {group property : String} {v : Json} :
    (ofEntries entries).value? group property = some v
      ↔ ∃ entry ∈ entries, entry.group = group ∧ entry.property = property
        ∧ entry.value = v := by
  have h := (foldl_put grouped_nil (fun _ _ => rfl) hplaces).2 group property v
  simpa [ofEntries, value?, membersOf, Fields.get?] using h

/-- What holds of the empty style and is kept by the entries that are put holds of their style. -/
@[elab_as_elim]
theorem ofEntries_induction {P : Style → Prop} {entries : List StyleEntry} (nil : P [])
    (put : ∀ style, P style → ∀ entry ∈ entries, P (putEntry style entry)) :
    P (ofEntries entries) :=
  List.foldlRecOn entries putEntry nil put

/-- Every style that is made of entries is grouped. -/
theorem grouped_ofEntries (entries : List StyleEntry) : (ofEntries entries).Grouped :=
  ofEntries_induction grouped_nil fun _ h entry _ => h.put entry.group entry.property entry.value

theorem mem_names_of_ofEntries {entries : List StyleEntry} {name : String}
    (h : name ∈ Fields.names (ofEntries entries)) :
    ∃ entry ∈ entries, name = entry.group ∨ name = entry.property ∨ name ∈ entry.value.names := by
  revert h
  refine ofEntries_induction (fun h => by simp at h) fun style hstyle entry hin h => ?_
  rcases mem_names_of_put h with hold | hnew
  · exact hstyle hold
  · exact ⟨entry, hin, hnew⟩

section Regular

variable {P : Number → Prop}

/-- A condition on the numbers in a style stays true when a value is put in that satisfies it. -/
theorem regular_put {style : Style} (h : Fields.Regular P style) (group property : String)
    {v : Json} (hv : v.Regular P) : Fields.Regular P (style.put group property v) := by
  have hmembers : Fields.Regular P (membersOf (style.get? group)) := by
    unfold membersOf
    split
    · next members hget => exact Json.regular_object.1 (h.get? hget)
    · exact Fields.regular_nil
  exact h.set group (Json.regular_object.2 (hmembers.set property hv))

/-- A condition on numbers is true of a style if it is true of all entries that the style is made
of. -/
theorem regular_ofEntries {entries : List StyleEntry}
    (h : ∀ entry ∈ entries, entry.value.Regular P) : Fields.Regular P (ofEntries entries) :=
  ofEntries_induction Fields.regular_nil fun _ hstyle entry hin =>
    regular_put hstyle entry.group entry.property (h entry hin)

end Regular

/-! ## Declarations -/

/-- The properties with one value, and the declarations that show them. -/
def rows : List (String × String × String) :=
  [("typography", "fontSize", "font-size"), ("typography", "lineHeight", "line-height"),
    ("typography", "letterSpacing", "letter-spacing"),
    ("typography", "textTransform", "text-transform"), ("color", "text", "color"),
    ("color", "background", "background-color"), ("color", "gradient", "background"),
    ("border", "radius", "border-radius"), ("border", "width", "border-width"),
    ("border", "style", "border-style"), ("border", "color", "border-color")]

/-- A member is declared if it has a value that counts as given, with its text. -/
theorem mem_declare {group : Fields} {key property : String} {d : Declaration} :
    d ∈ declare group key property
      ↔ ∃ v, group.get? key = some v ∧ v.isGiven = true ∧ d = (property, v.displayText) := by
  simp only [declare, given?, Option.mem_toList, Option.map_eq_some_iff, Option.filter_eq_some_iff]
  constructor
  · rintro ⟨v, ⟨hv, hgiven⟩, rfl⟩
    exact ⟨v, hv, hgiven, rfl⟩
  · rintro ⟨v, hv, hgiven, rfl⟩
    exact ⟨v, ⟨hv, hgiven⟩, rfl⟩

/-- The declaration of a row. -/
def declareRow (style : Style) (row : String × String × String) : List Declaration :=
  declare (membersOf (style.get? row.1)) row.2.1 row.2.2

/-- The declarations in their order: type and color, boxes, gap, border. -/
theorem declarations_eq (style : Style) :
    style.declarations
      = (rows.take 7).flatMap style.declareRow
        ++ ["padding", "margin"].flatMap
          (fun box => declareSides (membersOf (style.value? "spacing" box)) box)
        ++ ((gapValue? (style.value? "spacing" "blockGap")).map fun v => ("gap", v)).toList
        ++ (rows.drop 7).flatMap style.declareRow := by
  simp [declarations, rows, declareRow, value?]

/-- **The declarations of a style**: its single values, the sides of its boxes, and its gap. What is
declared is known by membership, so that later proofs need not follow the order of the declarations.
-/
theorem mem_declarations {style : Style} {d : Declaration} :
    d ∈ style.declarations
      ↔ (∃ row ∈ rows, ∃ v, style.value? row.1 row.2.1 = some v ∧ v.isGiven = true
          ∧ d = (row.2.2, v.displayText))
        ∨ (∃ box ∈ ["padding", "margin"],
            d ∈ declareSides (membersOf (style.value? "spacing" box)) box)
        ∨ ∃ gap, gapValue? (style.value? "spacing" "blockGap") = some gap ∧ d = ("gap", gap) := by
  have hrow : ∀ row, d ∈ style.declareRow row
      ↔ ∃ v, style.value? row.1 row.2.1 = some v ∧ v.isGiven = true
        ∧ d = (row.2.2, v.displayText) := fun row => mem_declare
  -- the rows for type and color come before the boxes, those for borders at the end
  have hrows : ∀ row, row ∈ rows ↔ row ∈ rows.take 7 ∨ row ∈ rows.drop 7 := by
    intro row
    rw [← List.mem_append, List.take_append_drop]
  have hgap : d ∈ ((gapValue? (style.value? "spacing" "blockGap")).map fun v => ("gap", v)).toList
      ↔ ∃ gap, gapValue? (style.value? "spacing" "blockGap") = some gap ∧ d = ("gap", gap) := by
    rw [Option.mem_toList, Option.map_eq_some_iff]
    simp [eq_comm]
  simp only [declarations_eq, List.mem_append, List.mem_flatMap, hgap, ← hrow, hrows,
    or_and_right, exists_or]
  constructor
  · rintro (((hrow | hbox) | hgap) | hrow)
    · exact Or.inl (Or.inl hrow)
    · exact Or.inr (Or.inl hbox)
    · exact Or.inr (Or.inr hgap)
    · exact Or.inl (Or.inr hrow)
  · rintro ((hrow | hrow) | hbox | hgap)
    · exact Or.inl (Or.inl (Or.inl hrow))
    · exact Or.inr hrow
    · exact Or.inl (Or.inl (Or.inr hbox))
    · exact Or.inl (Or.inr hgap)

/-- An entry with texts that declarations show: a single value, a box whose sides begin no comment,
or a gap. -/
inductive Shown : StyleEntry → Prop
  | row {group property name s : String} {className : Option String}
      (hrow : (group, property, name) ∈ rows) (hs : s ≠ "") :
      Shown ⟨group, property, .string s, className⟩
  | box {box : String} {members : Fields} {className : Option String}
      (hbox : box ∈ ["padding", "margin"])
      (hmembers : ∀ member ∈ members, ¬Comment.EndsIn member.1
        ∧ ∃ s, member.2 = .string s ∧ ¬Comment.BeginsIn s) :
      Shown ⟨"spacing", box, .object members, className⟩
  | gap {s : String} {className : Option String} (hs : s ≠ "") :
      Shown ⟨"spacing", "blockGap", .string s, className⟩

theorem displayText_string (s : String) : (Json.string s).displayText = s := by
  simp [Json.displayText, Json.display]

/-- No row is about spacing, which has boxes and a gap. -/
theorem not_mem_rows {property name : String} : ("spacing", property, name) ∉ rows := by
  intro h
  have hall : ∀ row ∈ rows, row.1 ≠ "spacing" := by decide
  exact hall _ h rfl

/-- **A declared value is a text of an entry.** Conversely `beginsIn_declarations` says which texts
of entries are declared. -/
theorem exists_of_mem_declarations {entries : List StyleEntry}
    (hplaces : (places entries).Nodup) (hshown : ∀ entry ∈ entries, Shown entry) {d : Declaration}
    (hd : d ∈ (ofEntries entries).declarations) : ∃ entry ∈ entries, d.2 ∈ entry.value.texts := by
  rcases mem_declarations.1 hd with ⟨row, hrow, v, hv, -, rfl⟩ | ⟨box, hbox, hside⟩
    | ⟨gap, hgap, rfl⟩
  -- a single value: its entry has a row
  · obtain ⟨entry, hin, hgroup, hproperty, rfl⟩ := (value?_ofEntries hplaces).1 hv
    refine ⟨entry, hin, ?_⟩
    cases hshown entry hin with
    | row _ _ => simp [displayText_string]
    | box _ _ | gap _ =>
      obtain ⟨group, property, name⟩ := row
      obtain rfl : "spacing" = group := hgroup
      exact absurd hrow not_mem_rows
  -- a side of a box: it is a member of the value of an entry
  · obtain ⟨side, -, hside⟩ := List.mem_flatMap.1 hside
    obtain ⟨v, hv, -, rfl⟩ := mem_declare.1 hside
    cases hvalue : (ofEntries entries).value? "spacing" box with
    | none => simp [hvalue, membersOf, Fields.get?] at hv
    | some boxed =>
      obtain ⟨entry, hin, hgroup, -, rfl⟩ := (value?_ofEntries hplaces).1 hvalue
      rw [hvalue] at hv
      refine ⟨entry, hin, ?_⟩
      cases hshown entry hin with
      | box _ hmembers =>
        have hmember := Fields.mem_of_get? hv
        obtain ⟨-, s, hs, -⟩ := hmembers _ hmember
        obtain rfl : v = .string s := hs
        rw [displayText_string, Json.texts_object]
        exact Fields.mem_texts.2 ⟨_, hmember, by simp⟩
      | row _ _ | gap _ => simp [membersOf, Fields.get?] at hv
  -- the gap
  · cases hvalue : (ofEntries entries).value? "spacing" "blockGap" with
    | none => simp [hvalue, gapValue?] at hgap
    | some v =>
      obtain ⟨entry, hin, hgroup, hproperty, rfl⟩ := (value?_ofEntries hplaces).1 hvalue
      refine ⟨entry, hin, ?_⟩
      cases hshown entry hin with
      | row hrow _ =>
        obtain rfl : _ = "spacing" := hgroup
        exact absurd hrow not_mem_rows
      | box hbox _ =>
        obtain rfl : _ = "blockGap" := hproperty
        exact absurd hbox (by decide)
      | @gap s _ hs =>
        obtain rfl : s = gap := by simpa [hvalue, gapValue?, hs] using hgap
        simp

/-- A text of an entry that begins a comment is declared. It is not empty, and shown entries stand
where a property is declared for them. -/
theorem exists_declaration_of_beginsIn {entries : List StyleEntry}
    (hplaces : (places entries).Nodup) {entry : StyleEntry} (hin : entry ∈ entries)
    (hshown : Shown entry) {s : String} (hs : s ∈ entry.value.texts)
    (hbegins : Comment.BeginsIn s) : ∃ d ∈ (ofEntries entries).declarations, d.2 = s := by
  have hv := (value?_ofEntries hplaces).2 ⟨entry, hin, rfl, rfl, rfl⟩
  cases hshown with
  | row hrow hne =>
    obtain rfl : s = _ := by simpa using hs
    refine ⟨_, mem_declarations.2 (Or.inl ⟨_, hrow, _, hv, ?_, rfl⟩), displayText_string s⟩
    simpa [Json.isGiven] using hne
  | box _ hmembers =>
    -- the sides of a box begin no comment
    obtain ⟨member, hmember, hs⟩ := Fields.mem_texts.1 hs
    obtain ⟨-, w, hw, hno⟩ := hmembers member hmember
    rw [hw, Json.texts_string, List.mem_singleton] at hs
    exact absurd (hs ▸ hbegins) hno
  | gap hne =>
    obtain rfl : s = _ := by simpa using hs
    refine ⟨_, mem_declarations.2 (Or.inr (Or.inr ⟨s, ?_, rfl⟩)), rfl⟩
    rw [hv]
    simp [gapValue?, hne]

/-- **The declarations of a style begin a comment exactly if a text of one of its entries does.**
What is not shown, such as a side of a box that is no side, begins none by what `Shown` asks for. -/
theorem beginsIn_declarations {entries : List StyleEntry} (hplaces : (places entries).Nodup)
    (hshown : ∀ entry ∈ entries, Shown entry) :
    (∃ d ∈ (ofEntries entries).declarations, Comment.BeginsIn d.2)
      ↔ ∃ entry ∈ entries, ∃ s ∈ entry.value.texts, Comment.BeginsIn s := by
  constructor
  · rintro ⟨d, hd, hbegins⟩
    obtain ⟨entry, hin, hs⟩ := exists_of_mem_declarations hplaces hshown hd
    exact ⟨entry, hin, d.2, hs, hbegins⟩
  · rintro ⟨entry, hin, s, hs, hbegins⟩
    obtain ⟨d, hd, rfl⟩ :=
      exists_declaration_of_beginsIn hplaces hin (hshown entry hin) hs hbegins
    exact ⟨d, hd, hbegins⟩

/-- The keys of a style whose entries are shown end no comment: they are names of groups, properties
and sides. -/
theorem not_endsIn_of_mem_names {entries : List StyleEntry}
    (hshown : ∀ entry ∈ entries, Shown entry) :
    ∀ key ∈ Fields.names (ofEntries entries), ¬Comment.EndsIn key := by
  -- the keys of the table are looked through, those of a box are given by the entry
  have hrows : ∀ row ∈ rows, ¬Comment.EndsIn row.1 ∧ ¬Comment.EndsIn row.2.1 := by decide
  have hspacing : ¬Comment.EndsIn "spacing" := by decide
  intro key hkey
  obtain ⟨entry, hin, hname⟩ := mem_names_of_ofEntries hkey
  cases hshown entry hin with
  | row hrow _ =>
    rcases hname with rfl | rfl | hname
    · exact (hrows _ hrow).1
    · exact (hrows _ hrow).2
    · simp at hname
  | box hbox hmembers =>
    rcases hname with rfl | rfl | hname
    · exact hspacing
    · have hboxes : ∀ box ∈ ["padding", "margin"], ¬Comment.EndsIn box := by decide
      exact hboxes _ hbox
    · obtain ⟨member, hmember, hname⟩ := Fields.mem_names.1 hname
      obtain ⟨hmemberKey, s, hs, -⟩ := hmembers member hmember
      rcases hname with rfl | hname
      · exact hmemberKey
      · simp [hs] at hname
  | gap _ =>
    rcases hname with rfl | rfl | hname
    · exact hspacing
    · show ¬Comment.EndsIn "blockGap"
      decide
    · simp at hname

/-- The names of the properties that a style can declare. -/
def propertyNames : List String :=
  rows.map (fun row => row.2.2)
    ++ ["padding", "margin"].flatMap (fun box =>
      ["top", "right", "bottom", "left"].map fun side => box ++ "-" ++ side)
    ++ ["gap"]

/-- Names of declarations come from the table, so that only values can hold something unforeseen. -/
theorem fst_of_mem_declarations {style : Style} {d : Declaration} (h : d ∈ style.declarations) :
    d.1 ∈ propertyNames := by
  rw [propertyNames, List.mem_append, List.mem_append]
  rcases mem_declarations.1 h with ⟨row, hrow, v, -, -, rfl⟩ | ⟨box, hbox, hside⟩
    | ⟨gap, -, rfl⟩
  · exact Or.inl (Or.inl (List.mem_map_of_mem hrow))
  · obtain ⟨side, hin, hside⟩ := List.mem_flatMap.1 hside
    obtain ⟨v, -, -, rfl⟩ := mem_declare.1 hside
    exact Or.inl (Or.inr (List.mem_flatMap.2 ⟨box, hbox, List.mem_map_of_mem hin⟩))
  · exact Or.inr (by simp)

section Marks

variable {mark : List Char}

/-- A mark without the separators of declarations stands in the style attribute exactly if it stands
in a declared value, if it stands in no name of a property. -/
theorem infix_inlineAttribute {style : Style} (hseparators : ';' ∉ mark ∧ ':' ∉ mark)
    (hmark : mark ≠ []) (hnames : ∀ name ∈ propertyNames, ¬mark <:+: name.toList) :
    (∃ a ∈ style.inlineAttribute, mark <:+: a.2.toList)
      ↔ ∃ d ∈ style.declarations, mark <:+: d.2.toList := by
  -- the mark can stand neither in a property nor across a separator
  have hdeclaration : ∀ d ∈ style.declarations,
      mark <:+: (d.1 ++ ":" ++ d.2).toList ↔ mark <:+: d.2.toList := by
    intro d hd
    have hlist : (d.1 ++ ":" ++ d.2).toList = d.1.toList ++ ':' :: d.2.toList := by simp
    rw [hlist, Text.infix_append_cons hseparators.2 hmark,
      or_iff_right (hnames _ (fst_of_mem_declarations hd))]
  have hsemicolon : ";".toList = [';'] := rfl
  unfold inlineAttribute
  split
  · next hnone => simp [hnone]
  · simp only [List.mem_singleton, exists_eq_left, String.toList_intercalate, hsemicolon,
      Text.infix_intercalate hseparators.1 hmark, List.map_map, List.mem_map,
      exists_exists_and_eq_and]
    exact exists_congr fun d => and_congr_right (hdeclaration d)

end Marks

/-- The style attribute begins a comment exactly if a declared value does. -/
theorem beginsIn_inlineAttribute (style : Style) :
    (∃ a ∈ style.inlineAttribute, Comment.BeginsIn a.2)
      ↔ ∃ d ∈ style.declarations, Comment.BeginsIn d.2 :=
  infix_inlineAttribute (by decide) (by decide) (by decide)

/-- The style attribute is called that, if there is one. -/
theorem fst_of_mem_inlineAttribute {style : Style} {a : String × String}
    (h : a ∈ style.inlineAttribute) : a.1 = "style" := by
  unfold inlineAttribute at h
  split at h
  · simp at h
  · rw [List.mem_singleton.1 h]

/-! ## The entries of a node -/

/-- The place of text color. -/
def textColorPlace : String × String := ("color", "text")

/-- The place of the color behind text. -/
def backgroundColorPlace : String × String := ("color", "background")

/-- Entries behind others stand in their places behind those of the others. -/
theorem places_append (a b : List StyleEntry) : places (a ++ b) = places a ++ places b :=
  List.map_append

/-- An entry that may be missing stands in one place at most. -/
theorem places_toList {α : Type} (value : Option α) (make : α → StyleEntry)
    (place : String × String) (h : ∀ a, ((make a).group, (make a).property) = place) :
    (places (value.map make).toList).Sublist [place] := by
  cases value with
  | none => simp [places]
  | some a => simp [places, h]

/-- The entries for type have different places, as the properties of the table have different keys.
-/
theorem places_typography (style : FreeStyle) :
    (places (StyleEntry.typography style)).Sublist
      (StyleEntry.typographyProperties.map fun (_, key) => ("typography", key)) := by
  unfold StyleEntry.typography
  induction StyleEntry.typographyProperties with
  | nil => simp [places]
  | cons row rest ih =>
    obtain ⟨property, key⟩ := row
    rw [List.map_cons, List.filterMap_cons]
    cases hvalue : style.usable? property with
    | none =>
      simp only [hvalue, Option.map_none]
      exact ih.cons _
    | some value =>
      simp only [hvalue, Option.map_some]
      exact ih.cons_cons _

/-- A color comes from the attributes or else from the free style, and has one place either way. -/
theorem places_color (own free : Option String) (make : String → StyleEntry)
    (place : String × String) (h : ∀ s, ((make s).group, (make s).property) = place) :
    (places (own.map make).toList
      ++ places (if own.isSome then [] else (free.map make).toList)).Sublist [place] := by
  cases own with
  | none => simpa [places] using places_toList free make place h
  | some s => simp [places, h]

/-- **No two entries of a node stand at one place.** A color stands in two of the lists that entries
are made of, but in the second one only if it is missing in the first. -/
theorem nodup_places_ofNode (attributes : Attributes) (style : Option FreeStyle) :
    (places (StyleEntry.ofNode attributes style)).Nodup := by
  have htext := places_color (usable? attributes.textColor) ((style.getD []).usable? "color")
    StyleEntry.textColor textColorPlace fun _ => rfl
  have hbackground := places_color (usable? attributes.backgroundColor)
    ((style.getD []).usable? "background-color") StyleEntry.backgroundColor backgroundColorPlace
    fun _ => rfl
  have hpadding := places_toList attributes.padding (fun size => StyleEntry.padding size.padding)
    ("spacing", "padding") fun _ => rfl
  -- the entries stand in another order, so their places are counted
  have hsub := (htext.append hbackground).append
    (hpadding.append (places_typography (style.getD [])))
  have hnodup := hsub.nodup (show List.Nodup _ by decide)
  refine (List.Perm.nodup_iff (List.perm_iff_count.2 fun place => ?_)).1 hnodup
  simp only [StyleEntry.ofNode, places_append, List.count_append]
  omega

theorem usable?_ne_empty {value : Option String} {s : String} (h : usable? value = some s) :
    s ≠ "" := by
  rw [usable?, Option.filter_eq_some_iff] at h
  rintro rfl
  simp at h

/-- **The entries that a node can have**: colors, a padding, and properties of type. -/
inductive OfNode : StyleEntry → Prop
  | textColor {s : String} (hs : s ≠ "") : OfNode (.textColor s)
  | backgroundColor {s : String} (hs : s ≠ "") : OfNode (.backgroundColor s)
  | padding (size : Size) : OfNode (.padding size.padding)
  | typography {row : String × String} {s : String} (hrow : row ∈ StyleEntry.typographyProperties)
      (hs : s ≠ "") : OfNode ⟨"typography", row.2, .string s, none⟩

/-- By cases on the list that an entry comes from. Colors stand in two of them: in that for
attributes, or else in that for the free style. -/
theorem ofNode_of_mem {attributes : Attributes} {style : Option FreeStyle} {entry : StyleEntry}
    (h : entry ∈ StyleEntry.ofNode attributes style) : OfNode entry := by
  have hcolor : ∀ {value : Option String} {make : String → StyleEntry},
      (∀ s ≠ "", OfNode (make s)) → entry ∈ ((usable? value).map make).toList → OfNode entry := by
    intro value make hmake hin
    obtain ⟨s, hs, rfl⟩ := Option.map_eq_some_iff.1 (Option.mem_toList.1 hin)
    exact hmake s (usable?_ne_empty hs)
  simp only [StyleEntry.ofNode, List.mem_append] at h
  rcases h with ((((hin | hin) | hin) | hin) | hin) | hin
  · exact hcolor (fun _ => .textColor) hin
  · exact hcolor (fun _ => .backgroundColor) hin
  · obtain ⟨size, -, rfl⟩ := Option.map_eq_some_iff.1 (Option.mem_toList.1 hin)
    exact .padding size
  · obtain ⟨row, hrow, hvalue⟩ := List.mem_filterMap.1 hin
    obtain ⟨s, hs, rfl⟩ := Option.map_eq_some_iff.1 hvalue
    exact .typography hrow (usable?_ne_empty hs)
  -- the free style's color is left out if the attributes have one
  · split at hin
    · simp at hin
    · exact hcolor (fun _ => .backgroundColor) hin
  · split at hin
    · simp at hin
    · exact hcolor (fun _ => .textColor) hin

/-- The values of the entries of a node are texts, or objects of texts. -/
theorem OfNode.regular {P : Number → Prop} {entry : StyleEntry} (h : OfNode entry) :
    entry.value.Regular P := by
  cases h with
  | padding size => simp [StyleEntry.padding]
  | textColor _ | backgroundColor _ | typography _ _ => exact Json.regular_string _

/-- The entries of a node are shown ones, so that everything above about styles of such entries
applies to the style of any node. -/
theorem OfNode.shown {entry : StyleEntry} (h : OfNode entry) : Shown entry := by
  cases h with
  | textColor hs =>
    have hrow : ("color", "text", "color") ∈ rows := by decide
    exact .row hrow hs
  | backgroundColor hs =>
    have hrow : ("color", "background", "background-color") ∈ rows := by decide
    exact .row hrow hs
  | padding size =>
    refine .box (by decide) fun member hmember => ?_
    obtain ⟨side, hside, rfl⟩ := List.mem_map.1 hmember
    have hall : ∀ side ∈ ["top", "right", "bottom", "left"], ¬Comment.EndsIn side := by decide
    exact ⟨hall side hside, size.padding, rfl, by cases size <;> decide⟩
  | typography hrow hs =>
    have hall : ∀ row ∈ StyleEntry.typographyProperties, ("typography", row.2, row.1) ∈ rows := by
      decide
    exact .row (hall _ hrow) hs

/-- The classes that go with the style of a node are classes of the program. -/
theorem mem_classesOfNode {attributes : Attributes} {style : Option FreeStyle} {c : String}
    (h : c ∈ classesOfNode attributes style) : c ∈ ["has-text-color", "has-background"] := by
  obtain ⟨entry, hin, hc⟩ := List.mem_filterMap.1 h
  cases ofNode_of_mem hin with
  | textColor _ => simp [← Option.some.inj hc]
  | backgroundColor _ => simp [← Option.some.inj hc]
  | padding _ => simp [StyleEntry.padding] at hc
  | typography _ _ => simp at hc

end Style

end BlockTheme
