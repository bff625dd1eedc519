import BlockTheme.Proofs.Markup.Comments
import BlockTheme.Proofs.Style.Entries
import BlockTheme.Render.Appearance

/-!
# Comments and appearances

An appearance starts from what a program says (`Appearance.Plain`) and takes over two kinds of text
from a document: the values of style entries and a class name. Both go into the attributes of the
block and into those of its element, so a block with such an appearance is inert exactly if these
texts are quiet and its content is inert (`Bare.inert_block_iff`, `Plain.inert_block_iff`).
-/

namespace BlockTheme

open Comment (BeginsIn EndsIn Quiet)

/-- A class name that may be missing is quiet. -/
def QuietName (className : Option String) : Prop := ∀ s, className = some s → Quiet s

/-- Entries whose texts are quiet. -/
def QuietEntries (entries : List StyleEntry) : Prop :=
  ∀ entry ∈ entries, ∀ s ∈ entry.value.texts, Quiet s

namespace Appearance

/-! ## Class names -/

section Marks

variable {mark : List Char}

/-- A mark without blanks stands in the classes of a class name exactly if it stands in the name:
splitting at blanks neither cuts it nor makes it. -/
theorem infix_classNames (hblank : ' ' ∉ mark) (hmark : mark ≠ []) (s : String) :
    (∃ c ∈ classNames s, mark <:+: c.toList) ↔ mark <:+: s.toList := by
  rw [← Text.infix_splitAt hblank hmark]
  constructor
  · rintro ⟨c, hc, hin⟩
    obtain ⟨part, hpart, rfl⟩ := List.mem_map.1 hc
    rw [String.toList_ofList] at hin
    exact ⟨part, (List.mem_filter.1 hpart).1, hin⟩
  · rintro ⟨part, hpart, hin⟩
    have hne : part ≠ [] := by
      rintro rfl
      exact hmark (List.infix_nil.1 hin)
    have hkept : part ∈ (Text.splitAt ' ' s.toList).filter (!·.isEmpty) :=
      List.mem_filter.2 ⟨hpart, by simpa using hne⟩
    refine ⟨String.ofList part, List.mem_map_of_mem hkept, ?_⟩
    rwa [String.toList_ofList]

/-- It stands in the class attribute exactly if it stands in one of the classes, which are joined
with blanks. -/
theorem infix_classAttribute (hblank : ' ' ∉ mark) (hmark : mark ≠ []) (classes : List String) :
    (∃ a ∈ Markup.classAttribute classes, mark <:+: a.2.toList)
      ↔ ∃ c ∈ classes, mark <:+: c.toList := by
  have hjoin : mark <:+: (" ".intercalate classes).toList ↔ ∃ c ∈ classes, mark <:+: c.toList := by
    have hspace : " ".toList = [' '] := rfl
    rw [String.toList_intercalate, hspace, Text.infix_intercalate hblank hmark]
    simp
  unfold Markup.classAttribute
  split
  · next hnone => simp [List.isEmpty_iff.1 hnone]
  · rw [← hjoin]
    simp

/-- It stands in the classes with a class name exactly if it stands in those without, or in the
name. -/
theorem infix_named (hblank : ' ' ∉ mark) (hmark : mark ≠ []) (a : Appearance)
    (className : Option String) :
    (∃ c ∈ (a.named className).classes, mark <:+: c.toList)
      ↔ (∃ c ∈ a.classes, mark <:+: c.toList) ∨ ∃ s, className = some s ∧ mark <:+: s.toList := by
  cases className with
  | none => simp [named]
  | some name =>
    rw [named]
    by_cases hempty : name.isEmpty = true
    · obtain rfl := String.isEmpty_iff.1 hempty
      simp [hmark]
    · have hclasses := infix_classNames hblank hmark name
      simp [hempty, addClasses, set, or_and_right, exists_or, ← hclasses]

end Marks

/-- The class attribute begins a comment exactly if one of the classes does. -/
theorem beginsIn_classAttribute (classes : List String) :
    (∃ a ∈ Markup.classAttribute classes, BeginsIn a.2) ↔ ∃ c ∈ classes, BeginsIn c :=
  infix_classAttribute (by decide) (by decide) classes

/-- The class attribute is called that, if there is one. -/
theorem fst_of_mem_classAttribute {classes : List String} {a : String × String}
    (h : a ∈ Markup.classAttribute classes) : a.1 = "class" := by
  unfold Markup.classAttribute at h
  split at h
  · simp at h
  · rw [List.mem_singleton.1 h]

/-! ## Plain appearances -/

/-- An appearance in which nothing comes from a document. -/
structure Plain (a : Appearance) : Prop where
  not_endsIn_text : ∀ s ∈ a.attributes.texts, ¬EndsIn s
  not_endsIn_name : ∀ key ∈ a.attributes.names, ¬EndsIn key
  not_beginsIn_class : ∀ c ∈ a.classes, ¬BeginsIn c
  className_eq_none : a.attributes.get? "className" = none

/-- Setting an attribute of a program keeps an appearance plain. The class name is not set in this
way, as it comes from the document. -/
theorem Plain.set {a : Appearance} (h : a.Plain) {key : String} {v : Json}
    (hkey : key ≠ "className") (hname : ¬EndsIn key) (htexts : ∀ s ∈ v.texts, ¬EndsIn s)
    (hnames : ∀ key ∈ v.names, ¬EndsIn key) : (a.set key v).Plain where
  not_endsIn_text s hs := by
    rcases Fields.mem_texts_of_set hs with hold | hnew
    · exact h.not_endsIn_text s hold
    · exact htexts s hnew
  not_endsIn_name name hname' := by
    rcases Fields.mem_names_of_set hname' with hold | rfl | hnew
    · exact h.not_endsIn_name name hold
    · exact hname
    · exact hnames name hnew
  not_beginsIn_class := h.not_beginsIn_class
  className_eq_none := by
    rw [Appearance.set, Fields.get?_set, if_neg fun heq => hkey heq.symm, h.className_eq_none]

/-- A plain appearance without a style. -/
structure Bare (a : Appearance) : Prop extends Plain a where
  style_eq_none : a.attributes.get? "style" = none

/-- Setting an attribute of a program that is no style keeps an appearance bare. -/
theorem Bare.set {a : Appearance} (h : a.Bare) {key : String} {v : Json}
    (hkey : key ∉ ["className", "style"]) (hname : ¬EndsIn key)
    (htexts : ∀ s ∈ v.texts, ¬EndsIn s) (hnames : ∀ key ∈ v.names, ¬EndsIn key) :
    (a.set key v).Bare where
  toPlain := h.toPlain.set (fun heq => hkey (by simp [heq])) hname htexts hnames
  style_eq_none := by
    have hne : ¬"style" = key := fun heq => hkey (by simp [← heq])
    rw [Appearance.set, Fields.get?_set, if_neg hne, h.style_eq_none]

/-- Classes of a program keep an appearance plain, if none of them begins a comment. -/
theorem Plain.addClasses {a : Appearance} (h : a.Plain) {more : List String}
    (hmore : ∀ c ∈ more, ¬BeginsIn c) : (a.addClasses more).Plain where
  not_endsIn_text := h.not_endsIn_text
  not_endsIn_name := h.not_endsIn_name
  not_beginsIn_class c hc := by
    rcases List.mem_append.1 hc with hold | hnew
    · exact h.not_beginsIn_class c hold
    · exact hmore c hnew
  className_eq_none := h.className_eq_none

theorem Bare.addClasses {a : Appearance} (h : a.Bare) {more : List String}
    (hmore : ∀ c ∈ more, ¬BeginsIn c) : (a.addClasses more).Bare where
  toPlain := h.toPlain.addClasses hmore
  style_eq_none := h.style_eq_none

/-- An attribute in which nothing comes from a document. -/
def Constant (field : String × Json) : Prop :=
  ¬EndsIn field.1 ∧ (∀ s ∈ field.2.texts, ¬EndsIn s) ∧ ∀ key ∈ field.2.names, ¬EndsIn key

/-- An appearance that is written out in the program is plain; its attributes are looked through one
by one. -/
theorem Plain.of_constant {fields : Fields} {classes : List String}
    (hfields : ∀ field ∈ fields, Constant field) (hkeys : ∀ field ∈ fields, field.1 ≠ "className")
    (hclasses : ∀ c ∈ classes, ¬BeginsIn c) : Plain ⟨fields, classes⟩ where
  not_endsIn_text s hs := by
    obtain ⟨field, hin, hs⟩ := Fields.mem_texts.1 hs
    exact (hfields field hin).2.1 s hs
  not_endsIn_name key hkey := by
    obtain ⟨field, hin, rfl | hkey⟩ := Fields.mem_names.1 hkey
    · exact (hfields field hin).1
    · exact (hfields field hin).2.2 key hkey
  not_beginsIn_class := hclasses
  className_eq_none := Fields.get?_eq_none_of_forall hkeys

theorem Bare.of_constant {fields : Fields} {classes : List String}
    (hfields : ∀ field ∈ fields, Constant field)
    (hkeys : ∀ field ∈ fields, field.1 ∉ ["className", "style"])
    (hclasses : ∀ c ∈ classes, ¬BeginsIn c) : Bare ⟨fields, classes⟩ where
  toPlain := .of_constant hfields (fun field hin heq => hkeys field hin (by simp [heq])) hclasses
  style_eq_none :=
    Fields.get?_eq_none_of_forall fun field hin heq => hkeys field hin (by simp [heq])

/-- A preset of a program as an attribute and as a class keeps an appearance bare. -/
theorem Bare.setPreset {a : Appearance} (h : a.Bare) {key value c : String}
    (hkey : key ∉ ["className", "style"]) (hname : ¬EndsIn key) (hvalue : ¬EndsIn value)
    (hclass : ¬BeginsIn c) : ((a.set key (.string value)).addClasses [c]).Bare := by
  refine (h.set hkey hname ?_ ?_).addClasses ?_
  · simpa using hvalue
  · simp
  · simpa using hclass

/-! ## Taking over a class name -/

/-- The attributes with a class name end a comment exactly if those without do, or the class name
does. -/
theorem endsIn_named {a : Appearance} (h : a.attributes.get? "className" = none)
    (className : Option String) :
    (∃ s ∈ (a.named className).attributes.texts, EndsIn s)
      ↔ (∃ s ∈ a.attributes.texts, EndsIn s) ∨ ∃ s, className = some s ∧ EndsIn s := by
  cases className with
  | none => simp [named]
  | some name =>
    rw [named]
    by_cases hempty : name.isEmpty = true
    · have hno : ¬EndsIn name := String.isEmpty_iff.1 hempty ▸ Markup.not_endsIn_empty
      simp [hempty, hno]
    · have htexts : ∀ s, s ∈ (a.attributes.set "className" (.string name)).texts ↔ _ :=
        Fields.mem_texts_set (by simp [h])
      simp [hempty, addClasses, set, htexts, or_and_right, exists_or]

/-- The classes with a class name begin a comment exactly if those without do, or the class name
does. -/
theorem beginsIn_named (a : Appearance) (className : Option String) :
    (∃ c ∈ (a.named className).classes, BeginsIn c)
      ↔ (∃ c ∈ a.classes, BeginsIn c) ∨ ∃ s, className = some s ∧ BeginsIn s :=
  infix_named (by decide) (by decide) a className

theorem names_named {a : Appearance} (h : ∀ key ∈ a.attributes.names, ¬EndsIn key)
    (className : Option String) :
    ∀ key ∈ (a.named className).attributes.names, ¬EndsIn key := by
  cases className with
  | none => exact h
  | some name =>
    rw [named]
    split
    · exact h
    · intro key hkey
      rcases Fields.mem_names_of_set hkey with hold | rfl | hnew
      · exact h key hold
      · decide
      · simp at hnew

theorem within_named (a : Appearance) (className : Option String) :
    Style.within (a.named className).attributes = Style.within a.attributes := by
  cases className with
  | none => rfl
  | some name =>
    rw [named]
    split
    · rfl
    · simp [Style.within, addClasses, set, Fields.get?_set]

/-- A class name has to do with two comments: it could end the one of its block, where it is an
attribute, and begin one in its element, where it is a class. -/
theorem quietName_iff {className : Option String} :
    QuietName className
      ↔ (¬∃ s, className = some s ∧ EndsIn s) ∧ ¬∃ s, className = some s ∧ BeginsIn s := by
  simp only [QuietName, Quiet, not_exists, not_and]
  constructor
  · exact fun h => ⟨fun s hs => (h s hs).2, fun s hs => (h s hs).1⟩
  · exact fun h s hs => ⟨h.2 s hs, h.1 s hs⟩

theorem quietEntries_iff {entries : List StyleEntry} :
    QuietEntries entries
      ↔ (¬∃ entry ∈ entries, ∃ s ∈ entry.value.texts, EndsIn s)
        ∧ ¬∃ entry ∈ entries, ∃ s ∈ entry.value.texts, BeginsIn s := by
  simp only [QuietEntries, Quiet, not_exists, not_and]
  constructor
  · exact fun h => ⟨fun entry hin s hs => (h entry hin s hs).2, fun entry hin s hs =>
      (h entry hin s hs).1⟩
  · exact fun h entry hin s hs => ⟨h.2 entry hin s hs, h.1 entry hin s hs⟩

/-- **With a class name of the document, a plain appearance is inert exactly if the name is quiet.**
The name goes into two texts, and each could be spoilt by one of the two marks of a comment. -/
theorem Plain.quietName_iff {a : Appearance} (h : a.Plain) (className : Option String) :
    ((∀ s ∈ (a.named className).attributes.texts, ¬EndsIn s)
        ∧ ∀ x ∈ Markup.classAttribute (a.named className).classes, ¬BeginsIn x.2)
      ↔ QuietName className := by
  have htexts := endsIn_named h.className_eq_none className
  have hclasses := beginsIn_named a className
  rw [← beginsIn_classAttribute] at hclasses
  -- what the appearance had before comes from the program
  have hnoText : ¬∃ s ∈ a.attributes.texts, EndsIn s := by
    simpa using h.not_endsIn_text
  have hnoClass : ¬∃ c ∈ a.classes, BeginsIn c := by
    simpa using h.not_beginsIn_class
  rw [or_iff_right hnoText] at htexts
  rw [or_iff_right hnoClass] at hclasses
  rw [Appearance.quietName_iff, ← htexts, ← hclasses]
  simp

/-! ## Taking over a style -/

/-- An appearance with a style, classes of a program and a class name. -/
def styled (a : Appearance) (style : Style) (more : List String) (className : Option String) :
    Appearance :=
  ((a.setStyle style).addClasses more).named className

/-- The style of an appearance is the one that was set. -/
theorem within_styled {a : Appearance} (h : a.attributes.get? "style" = none) (style : Style)
    (more : List String) (className : Option String) :
    Style.within (a.styled style more className).attributes = style := by
  rw [styled, within_named]
  unfold setStyle
  split
  · next hempty =>
    rw [List.isEmpty_iff.1 hempty]
    simp [addClasses, Style.within, h, Style.membersOf]
  · simp [addClasses, set, Style.within, Fields.get?_set, Style.membersOf]

/-- The attributes with a style end a comment exactly if those without do, or the style. -/
theorem endsIn_setStyle {a : Appearance} (h : a.attributes.get? "style" = none) (style : Style) :
    (∃ s ∈ (a.setStyle style).attributes.texts, EndsIn s)
      ↔ (∃ s ∈ a.attributes.texts, EndsIn s) ∨ ∃ s ∈ Fields.texts style, EndsIn s := by
  unfold setStyle
  split
  · next hempty => simp [List.isEmpty_iff.1 hempty]
  · have htexts : ∀ s, s ∈ (a.attributes.set "style" (.object style)).texts ↔ _ :=
      Fields.mem_texts_set (by simp [h])
    simp [set, htexts, or_and_right, exists_or]

theorem classes_setStyle (a : Appearance) (style : Style) :
    (a.setStyle style).classes = a.classes := by
  unfold setStyle
  split <;> rfl

theorem className_setStyle {a : Appearance} (h : a.attributes.get? "className" = none)
    (style : Style) : (a.setStyle style).attributes.get? "className" = none := by
  unfold setStyle
  split
  · exact h
  · simp [set, Fields.get?_set, h]

/-- The keys of an appearance with a style are its own, those of the style, and the one of a class
name. -/
theorem names_styled {a : Appearance} (h : ∀ key ∈ a.attributes.names, ¬EndsIn key)
    {style : Style} (hstyle : ∀ key ∈ Fields.names style, ¬EndsIn key) (more : List String)
    (className : Option String) :
    ∀ key ∈ (a.styled style more className).attributes.names, ¬EndsIn key := by
  refine names_named ?_ className
  unfold setStyle
  split
  · exact h
  · intro key hkey
    rcases Fields.mem_names_of_set hkey with hold | rfl | hnew
    · exact h key hold
    · decide
    · exact hstyle key hnew

section Styled

variable {a : Appearance} {entries : List StyleEntry}

/-- The attributes with entries and a class name end a comment exactly if one of these does: what a
bare appearance has of its own ends none. -/
theorem Bare.endsIn_styled (h : a.Bare)
    (hplaces : (Style.places entries).Nodup) (more : List String) (className : Option String) :
    (∃ s ∈ (a.styled (Style.ofEntries entries) more className).attributes.texts, EndsIn s)
      ↔ (∃ entry ∈ entries, ∃ s ∈ entry.value.texts, EndsIn s)
        ∨ ∃ s, className = some s ∧ EndsIn s := by
  have hnoText : ¬∃ s ∈ a.attributes.texts, EndsIn s := by
    simpa using h.not_endsIn_text
  rw [styled, endsIn_named (a := (a.setStyle (Style.ofEntries entries)).addClasses more)
    (className_setStyle h.className_eq_none _)]
  refine or_congr_left ?_
  show (∃ s ∈ (a.setStyle (Style.ofEntries entries)).attributes.texts, EndsIn s) ↔ _
  rw [endsIn_setStyle h.style_eq_none, or_iff_right hnoText]
  simp only [Style.mem_texts_ofEntries hplaces]
  exact ⟨fun ⟨s, ⟨entry, hin, hs⟩, hends⟩ => ⟨entry, hin, s, hs, hends⟩,
    fun ⟨entry, hin, s, hs, hends⟩ => ⟨s, ⟨entry, hin, hs⟩, hends⟩⟩

/-- The element with entries and a class name begins a comment exactly if one of these does. An
entry shows in the style attribute only if it is declared, which shown entries are. -/
theorem Bare.beginsIn_styled (h : a.Bare)
    (hplaces : (Style.places entries).Nodup) (hshown : ∀ entry ∈ entries, Style.Shown entry)
    {more : List String} (hmore : ∀ c ∈ more, ¬BeginsIn c) (className : Option String) :
    (∃ x ∈ (a.styled (Style.ofEntries entries) more className).elementAttributes, BeginsIn x.2)
      ↔ (∃ s, className = some s ∧ BeginsIn s)
        ∨ ∃ entry ∈ entries, ∃ s ∈ entry.value.texts, BeginsIn s := by
  have hnoClass : ¬∃ c ∈ (a.setStyle (Style.ofEntries entries)).classes ++ more, BeginsIn c := by
    rw [classes_setStyle]
    rintro ⟨c, hc, hbegins⟩
    rcases List.mem_append.1 hc with hold | hnew
    · exact h.not_beginsIn_class c hold hbegins
    · exact hmore c hnew hbegins
  simp only [elementAttributes, List.mem_append, or_and_right, exists_or]
  rw [beginsIn_classAttribute, within_styled h.style_eq_none, Style.beginsIn_inlineAttribute,
    Style.beginsIn_declarations hplaces hshown, styled, beginsIn_named]
  exact or_congr_left (or_iff_right hnoClass)

/-- **With entries and a class name of the document, a bare appearance is inert exactly if these are
quiet.** The texts of entries stand in the attributes of the block, and those that are shown in the
style attribute of the element as well. -/
theorem Bare.quiet_iff (h : a.Bare)
    (hplaces : (Style.places entries).Nodup) (hshown : ∀ entry ∈ entries, Style.Shown entry)
    {more : List String} (hmore : ∀ c ∈ more, ¬BeginsIn c) (className : Option String) :
    ((∀ s ∈ (a.styled (Style.ofEntries entries) more className).attributes.texts, ¬EndsIn s)
        ∧ ∀ x ∈ (a.styled (Style.ofEntries entries) more className).elementAttributes,
          ¬BeginsIn x.2)
      ↔ QuietName className ∧ QuietEntries entries := by
  -- what is shown is the bare appearance with the class name and the entries added
  have hends := h.endsIn_styled hplaces more className
  have hbegins := h.beginsIn_styled hplaces hshown hmore className
  rw [Appearance.quietName_iff, quietEntries_iff]
  constructor
  · rintro ⟨htexts, hvalues⟩
    have hnoEnd := fun hex => let ⟨s, hs, hends⟩ := hends.2 hex; htexts s hs hends
    have hnoBegin := fun hex => let ⟨x, hx, hbegins⟩ := hbegins.2 hex; hvalues x hx hbegins
    exact ⟨⟨fun hex => hnoEnd (Or.inr hex), fun hex => hnoBegin (Or.inl hex)⟩,
      fun hex => hnoEnd (Or.inl hex), fun hex => hnoBegin (Or.inr hex)⟩
  · rintro ⟨⟨hnameEnd, hnameBegin⟩, hentryEnd, hentryBegin⟩
    refine ⟨fun s hs hin => ?_, fun x hx hin => ?_⟩
    · exact (hends.1 ⟨s, hs, hin⟩).elim hentryEnd hnameEnd
    · exact (hbegins.1 ⟨x, hx, hin⟩).elim hnameBegin hentryBegin

end Styled

/-! ## Blocks -/

section Blocks

variable {a : Appearance} {name tag : String} {content : List Markup}

/-- **A block with a class name of the document** is inert exactly if the name is quiet and its
content is inert. Kinds of nodes without a style have such a block. -/
theorem Plain.inert_block_iff (h : a.Plain) (className : Option String) (name tag : String)
    (content : List Markup) :
    Markup.Inert (.block name (a.named className).attributes
        [.element tag (Markup.classAttribute (a.named className).classes) content])
      ↔ QuietName className ∧ Markup.InertAll content := by
  rw [← h.quietName_iff className]
  simp only [Markup.Inert, Markup.InertAll, and_true, and_assoc]

/-- A block with a class name of the document is tidy. -/
theorem tidy_namedBlock (h : ∀ key ∈ a.attributes.names, ¬EndsIn key) (className : Option String)
    (hname : Markup.TidyName name) (htag : Markup.TidyTag tag) (hcontent : Markup.TidyAll content) :
    Markup.Tidy (.block name (a.named className).attributes
      [.element tag (Markup.classAttribute (a.named className).classes) content]) := by
  refine ⟨hname, names_named h className, ⟨htag, ?_, hcontent⟩, trivial⟩
  intro x hx
  rw [fst_of_mem_classAttribute hx]
  decide

/-- The element has a class attribute and a style attribute, and no other. -/
theorem fst_of_mem_elementAttributes {x : String × String} (h : x ∈ a.elementAttributes) :
    x.1 ∈ ["class", "style"] := by
  rcases List.mem_append.1 h with hclass | hstyle
  · simp [fst_of_mem_classAttribute hclass]
  · simp [Style.fst_of_mem_inlineAttribute hstyle]

variable {entries : List StyleEntry}

/-- **A block with entries and a class name of the document** is inert exactly if these are quiet
and its content is inert. -/
theorem Bare.inert_block_iff (h : a.Bare) (hplaces : (Style.places entries).Nodup)
    (hshown : ∀ entry ∈ entries, Style.Shown entry) {more : List String}
    (hmore : ∀ c ∈ more, ¬BeginsIn c) (className : Option String) (name tag : String)
    (content : List Markup) :
    Markup.Inert (.block name (a.styled (Style.ofEntries entries) more className).attributes
        [.element tag (a.styled (Style.ofEntries entries) more className).elementAttributes
          content])
      ↔ (QuietName className ∧ QuietEntries entries) ∧ Markup.InertAll content := by
  rw [← h.quiet_iff hplaces hshown hmore className]
  simp only [Markup.Inert, Markup.InertAll, and_true, and_assoc]

/-- A block with entries and a class name of the document is tidy. So only what is in its texts can
make it anything but inert. -/
theorem Bare.tidy_block (h : a.Bare) (hshown : ∀ entry ∈ entries, Style.Shown entry)
    (more : List String) (className : Option String) (hname : Markup.TidyName name)
    (htag : Markup.TidyTag tag) (hcontent : Markup.TidyAll content) :
    Markup.Tidy (.block name (a.styled (Style.ofEntries entries) more className).attributes
      [.element tag (a.styled (Style.ofEntries entries) more className).elementAttributes
        content]) := by
  have hstyle := Style.not_endsIn_of_mem_names hshown
  have hnames := names_styled h.not_endsIn_name hstyle more className
  refine ⟨hname, hnames, ⟨htag, ?_, hcontent⟩, trivial⟩
  intro x hx
  have hall : ∀ name ∈ ["class", "style"], '<' ∉ String.toList name := by decide
  exact hall _ (fst_of_mem_elementAttributes hx)

end Blocks

end Appearance

end BlockTheme
