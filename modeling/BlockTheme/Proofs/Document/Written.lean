import BlockTheme.Document.Writer
import BlockTheme.Proofs.Document.Loaded
import BlockTheme.Proofs.Json.RoundTrip
import BlockTheme.Proofs.Render.Delimiters

/-!
# Loading what was written

A document that was loaded is written as JSON that loads as the same document, in either of the two
ways of writing the names of members (`Document.load_json`). Each reader undoes a writer
(`Schema.Inverts`): the readers of fields take more than what is written, but what is written they
take for what it was. Members are found under either of their names since no name of one is a name of
another (`Schema.Separate`).

What is written can be read as a text only if it nests no deeper than is read. Writing may add a
level, since all members of a node are written and not all of them have to be given.
-/

namespace BlockTheme

namespace Schema

variable {α : Type} {P : α → Prop} {read : Json → Checked α} {write : α → Json}

/-! ## Single values -/

/-- A reader takes what is written for the value that was written, and what is written can be written
as a text that is read again. -/
structure Inverts (read : Json → Checked α) (write : α → Json) (P : α → Prop) : Prop where
  read_write : ∀ a, P a → read (write a) = .valid a
  ne_null : ∀ a, write a ≠ .null
  regular : ∀ a, P a → (write a).Regular Number.Fits

/-- A text is read as it is written. All values of the format that are plain texts rest on this one:
titles, sources of images, colors, class names. -/
theorem inverts_text : Inverts text .string fun _ => True where
  read_write _ _ := rfl
  ne_null _ := by simp
  regular _ _ := Json.regular_string _

/-- An integer is read as it is written. The condition is not for `integer` itself but for the text
that will be made of it: the reader of JSON refuses an integer with too many digits. -/
theorem inverts_integer : Inverts integer .int fun n => (Number.int n).Fits where
  read_write _ _ := rfl
  ne_null _ := by simp [Json.int]
  regular _ h := Json.regular_number.2 h

/-- A number is read as it is written, and keeps its kind: `1` stays an integer, and `1.0` stays a
floating-point number. -/
theorem inverts_number : Inverts number .number Number.Fits where
  read_write _ _ := rfl
  ne_null _ := by simp
  regular _ h := Json.regular_number.2 h

/-- A flag is read as it is written. The other spellings that the reader takes for flags, such as
`"yes"` or `1`, are never written. -/
theorem inverts_flag : Inverts flag .bool fun _ => True where
  read_write _ _ := rfl
  ne_null _ := by simp
  regular _ _ := Json.regular_bool _

/-- A vocabulary in which each word stands for one value. -/
class LawfulNamed (α : Type) [Named α] : Prop where
  ofName?_name : ∀ a : α, Named.ofName? (Named.name a) = some a

instance : LawfulNamed Motion := ⟨by intro a; cases a <;> decide⟩
instance : LawfulNamed Size := ⟨by intro a; cases a <;> decide⟩
instance : LawfulNamed Gap := ⟨by intro a; cases a <;> decide⟩
instance : LawfulNamed Radius := ⟨by intro a; cases a <;> decide⟩
instance : LawfulNamed Variant := ⟨by intro a; cases a <;> decide⟩
instance : LawfulNamed TextAlign := ⟨by intro a; cases a <;> decide⟩
instance : LawfulNamed VerticalAlign := ⟨by intro a; cases a <;> decide⟩
instance : LawfulNamed LayoutKind := ⟨by intro a; cases a <;> decide⟩
instance : LawfulNamed BackgroundKind := ⟨by intro a; cases a <;> decide⟩
instance : LawfulNamed Version := ⟨by intro a; cases a; rfl⟩

/-- The word for a value is read as that value. Whether the vocabulary has a name of its own changes
only what is said about a word that is not in it. -/
theorem inverts_oneOf [Named α] [LawfulNamed α] (vocabulary : Bool) :
    Inverts (oneOf vocabulary) (fun a : α => .string (Named.name a)) fun _ => True where
  read_write a _ := by
    rw [oneOf, LawfulNamed.ofName?_name a]
  ne_null _ := by simp
  regular _ _ := Json.regular_string _

/-! ## Arrays and maps -/

/-- Items are read as they are written, whatever position the first of them has. The position is
told only in the issues of an item, and here no item has any. -/
theorem Inverts.items (h : Inverts read write P) (position : Nat) (found : List α)
    (hfound : ∀ a ∈ found, P a) : items read position (found.map write) = .valid found := by
  induction found generalizing position with
  | nil => rfl
  | cons a rest ih =>
    obtain ⟨ha, hrest⟩ := List.forall_mem_cons.1 hfound
    rw [List.map_cons, Schema.items, h.read_write a ha, ih (position + 1) hrest]
    rfl

/-- An array is read as it is written if its items are. -/
theorem Inverts.array (h : Inverts read write P) :
    Inverts (array read) (fun found => .array (found.map write)) fun found => ∀ a ∈ found, P a where
  read_write found hfound := h.items 0 found hfound
  ne_null _ := by simp
  regular found hfound := by
    apply Json.regular_array.2
    intro v hv
    obtain ⟨a, ha, rfl⟩ := List.mem_map.1 hv
    exact h.regular a (hfound a ha)

/-- An array that has to have an item is read back, if it has one. -/
theorem Inverts.filledArray (h : Inverts read write P) :
    Inverts (filledArray read) (fun found => .array (found.map write))
      fun found => found ≠ [] ∧ ∀ a ∈ found, P a where
  read_write found hfound := by
    obtain ⟨a, rest, rfl⟩ := List.exists_cons_of_ne_nil hfound.1
    exact h.items 0 (a :: rest) hfound.2
  ne_null _ := by simp
  regular found hfound := h.array.regular found hfound.2

/-- The members of a style. -/
def styleMembers (style : FreeStyle) : Fields :=
  style.map fun (property, value) => (property, .string value)

/-- The keys of a style are its properties, in order. So they are different if the properties are.
-/
theorem keys_styleMembers (style : FreeStyle) :
    (styleMembers style).keys = style.map Prod.fst := by
  rw [Fields.keys, styleMembers, List.map_map]
  rfl

/-- Every entry of a style is read as it is written. Whether a property stands there twice does not
matter yet; that is what `byName` looks at (`byName_eq_self`). -/
theorem entries_styleMembers (style : FreeStyle) :
    entries text (styleMembers style) = .valid style := by
  induction style with
  | nil => rfl
  | cons entry rest ih =>
    obtain ⟨property, value⟩ := entry
    rw [styleMembers, List.map_cons, entries, ← styleMembers, ih]
    rfl

theorem put_of_new {map : List (String × α)} {name : String} (h : name ∉ map.map Prod.fst) (a : α) :
    put map name a = map ++ [(name, a)] := by
  induction map with
  | nil => rfl
  | cons entry rest ih =>
    obtain ⟨other, b⟩ := entry
    obtain ⟨hother, hrest⟩ := not_or.1 (mt List.mem_cons.2 h)
    rw [put, if_neg fun heq => hother heq.symm, ih hrest]
    rfl

/-- Entries with different names are what they are by name. Collecting entries by name changes
something only where a name stands twice. -/
theorem byName_eq_self {found : List (String × α)} (h : (found.map Prod.fst).Nodup) :
    byName found = found := by
  -- the entries that were put already stand in front of those that are left, and have other names
  have hfold : ∀ entries map : List (String × α), ((map ++ entries).map Prod.fst).Nodup →
      entries.foldl (fun map entry => put map entry.1 entry.2) map = map ++ entries := by
    intro entries
    induction entries with
    | nil => exact fun map _ => (List.append_nil map).symm
    | cons entry rest ih =>
      obtain ⟨name, a⟩ := entry
      intro map hnodup
      have hnew : name ∉ map.map Prod.fst := by
        rw [List.map_append, List.nodup_append] at hnodup
        exact fun hmem => hnodup.2.2 name hmem name List.mem_cons_self rfl
      have hput : put map name a = map ++ [(name, a)] := put_of_new hnew a
      have hrest := ih (map ++ [(name, a)]) (by simpa using hnodup)
      rw [List.foldl_cons]
      dsimp only
      rw [hput, hrest, List.append_assoc, List.singleton_append]
  exact hfold found [] h

/-- The members of a style can be written if it has no property twice, since its values are texts.
-/
theorem regular_styleMembers {style : FreeStyle} (h : style.Distinct) :
    (styleMembers style).Regular Number.Fits := by
  induction style with
  | nil => exact Fields.regular_nil
  | cons entry rest ih =>
    obtain ⟨property, value⟩ := entry
    obtain ⟨hproperty, hrest⟩ := List.nodup_cons.1 h
    apply Fields.regular_cons.2
    refine ⟨?_, Json.regular_string value, ih hrest⟩
    show property ∉ (styleMembers rest).keys
    rwa [keys_styleMembers]

/-- A style with different properties is read as it is written. With a property twice it would not
be: of its values only the last would be left. -/
theorem inverts_style :
    Inverts (map text) (fun style => .object (styleMembers style)) FreeStyle.Distinct where
  read_write style h := by
    show byName <$> entries text (styleMembers style) = _
    rw [entries_styleMembers]
    exact congrArg Checked.valid (byName_eq_self h)
  ne_null _ := by simp
  regular _ h := Json.regular_object.2 (regular_styleMembers h)

/-! ## Members -/

/-- What is written for a value that may be missing. -/
def orNull (write : α → Json) (a : Option α) : Json := (a.map write).getD .null

/-- A value that may be missing is read as it is written: null for one that is missing. It matters
that nothing else is written as null (`Inverts.ne_null`). -/
theorem Inverts.nullable (h : Inverts read write P) (a : Option α) (ha : ∀ x ∈ a, P x) :
    Schema.nullable read (orNull write a) = .valid a := by
  cases a with
  | none => rfl
  | some x =>
    have hnull := h.ne_null x
    have hread : (read (write x)).map some = .valid (some x) := by
      rw [h.read_write x (ha x rfl)]
      rfl
    show Schema.nullable read (write x) = _
    unfold Schema.nullable
    split
    · next heq => exact absurd heq hnull
    · exact hread

/-- What is written for a value that may be missing can be read again as a text, like the value
itself. -/
theorem Inverts.regular_orNull (h : Inverts read write P) (a : Option α) (ha : ∀ x ∈ a, P x) :
    (orNull write a).Regular Number.Fits := by
  cases a with
  | none => exact Json.regular_null
  | some x => exact h.regular x (ha x rfl)

/-- Members in one way of writing. -/
def written (naming : Naming) (members : List (Key × Json)) : Fields :=
  members.map fun (key, v) => key.member naming v

/-- No name of a key is a name of another one. -/
def Separate (keys : List Key) : Prop :=
  keys.Pairwise fun a b => ∀ name ∈ [a.camel, a.snake], name ∉ [b.camel, b.snake]

instance (keys : List Key) : Decidable (Separate keys) :=
  inferInstanceAs (Decidable (keys.Pairwise _))

/-- However it is spelled, a key is written with one of its two names. -/
theorem Key.spelled_mem (key : Key) (naming : Naming) : key.spelled naming ∈ [key.camel, key.snake] := by
  cases naming <;> simp [Key.spelled]

section Written

variable {members : List (Key × Json)} {key : Key} {v : Json}

/-- The name of a key finds the member with this key, if it is written with that name. The keys are
separate: no name of one is a name of another, so the last member with the name is the only one. -/
theorem last?_written (hseparate : Separate (members.map Prod.fst)) (hmem : (key, v) ∈ members)
    (naming : Naming) {name : String} (hname : name ∈ [key.camel, key.snake]) :
    (written naming members).last? name = if name = key.spelled naming then some v else none := by
  induction members with
  | nil => cases hmem
  | cons member rest ih =>
    obtain ⟨other, w⟩ := member
    obtain ⟨hother, hrest⟩ := List.pairwise_cons.1 hseparate
    show (Fields.last? (written naming rest) name).or
      (if other.spelled naming = name then some w else none) = _
    -- the member itself, or one of those after it
    obtain heq | hmem := List.mem_cons.1 hmem
    · obtain ⟨rfl, rfl⟩ := Prod.mk.inj heq
      have hnone : (written naming rest).last? name = none := by
        refine Fields.last?_eq_none_iff.2 fun hkeys => ?_
        obtain ⟨field, hfield, hsame⟩ := List.mem_map.1 hkeys
        obtain ⟨⟨later, x⟩, hlater, rfl⟩ := List.mem_map.1 hfield
        have hspelled := Key.spelled_mem later naming
        exact hother later (List.mem_map_of_mem hlater) name hname (hsame ▸ hspelled)
      rw [hnone, Option.none_or]
      exact if_congr eq_comm rfl rfl
    · have hne : other.spelled naming ≠ name := by
        rintro rfl
        exact hother key (List.mem_map_of_mem hmem) _ (Key.spelled_mem other naming) hname
      rw [if_neg hne, Option.or_none, ih hrest hmem]

/-- A member that is written is found, under the one of its two names that was written. -/
theorem find?_written (hseparate : Separate (members.map Prod.fst)) (hmem : (key, v) ∈ members)
    (naming : Naming) : ∃ name, key.find? (written naming members) = some (name, v) := by
  have hcamel := last?_written hseparate hmem naming (List.mem_cons_self : key.camel ∈ _)
  have hsnake := last?_written hseparate hmem naming
    (List.mem_cons_of_mem _ List.mem_cons_self : key.snake ∈ [key.camel, key.snake])
  unfold Key.find?
  by_cases hspelled : key.camel = key.spelled naming
  · rw [hcamel, if_pos hspelled]
    exact ⟨key.camel, rfl⟩
  · have hother : key.snake = key.spelled naming := by
      cases naming with
      | camelCase => exact absurd rfl hspelled
      | snakeCase => rfl
    rw [hcamel, if_neg hspelled, hsnake, if_pos hother]
    exact ⟨key.snake, rfl⟩

/-- **A member that has to be there is read as it was written.** Besides the reader of its value,
only the other names matter: none of them may be taken for a name of this key. -/
theorem required_written (h : Inverts read write P) (hseparate : Separate (members.map Prod.fst))
    (naming : Naming) {a : α} (ha : P a) (hmem : (key, write a) ∈ members) :
    required key read (written naming members) = .valid a := by
  obtain ⟨name, hfind⟩ := find?_written hseparate hmem naming
  rw [required, hfind]
  show (read (write a)).within (.key name) = .valid a
  rw [h.read_write a ha]
  rfl

/-- A member with a default is read back. The default plays no part, since the member is always
written. -/
theorem withDefault_written (h : Inverts read write P) (hseparate : Separate (members.map Prod.fst))
    (naming : Naming) {a : α} (ha : P a) (hmem : (key, write a) ∈ members) (default : α) :
    withDefault default key read (written naming members) = .valid a := by
  obtain ⟨name, hfind⟩ := find?_written hseparate hmem naming
  rw [withDefault, hfind]
  show (read (write a)).within (.key name) = .valid a
  rw [h.read_write a ha]
  rfl

/-- A member that may be missing is read back, as null is written for it then. -/
theorem optional_written (h : Inverts read write P) (hseparate : Separate (members.map Prod.fst))
    (naming : Naming) {a : Option α} (ha : ∀ x ∈ a, P x) (hmem : (key, orNull write a) ∈ members) :
    optional key read (written naming members) = .valid a := by
  obtain ⟨name, hfind⟩ := find?_written hseparate hmem naming
  rw [optional, withDefault, hfind]
  show (Schema.nullable read (orNull write a)).within (.key name) = .valid a
  rw [h.nullable a ha]
  rfl

/-- The text of a member that may be missing is found. -/
theorem optional_text_written (hseparate : Separate (members.map Prod.fst)) (naming : Naming)
    {a : Option String} (hmem : (key, orNull .string a) ∈ members) :
    optional key text (written naming members) = .valid a :=
  optional_written inverts_text hseparate naming (fun _ _ => trivial) hmem

/-- So is its word. -/
theorem optional_oneOf_written [Named α] [LawfulNamed α]
    (hseparate : Separate (members.map Prod.fst)) (naming : Naming) {vocabulary : Bool}
    {a : Option α} (hmem : (key, orNull (fun a => .string (Named.name a)) a) ∈ members) :
    optional key (oneOf vocabulary) (written naming members) = .valid a :=
  optional_written (inverts_oneOf vocabulary) hseparate naming (fun _ _ => trivial) hmem

/-- Members can be written if their values can and no name of one is a name of another. Only the
spelled names are in the object, but which of the two these are depends on the way of writing. -/
theorem regular_written (hseparate : Separate (members.map Prod.fst)) (naming : Naming)
    (hvalues : ∀ member ∈ members, member.2.Regular Number.Fits) :
    (written naming members).Regular Number.Fits := by
  induction members with
  | nil => exact Fields.regular_nil
  | cons member rest ih =>
    obtain ⟨key, v⟩ := member
    obtain ⟨hkey, hrest⟩ := List.pairwise_cons.1 hseparate
    obtain ⟨hv, hvalues⟩ := List.forall_mem_cons.1 hvalues
    apply Fields.regular_cons.2
    refine ⟨?_, hv, ih hrest hvalues⟩
    intro hmem
    obtain ⟨field, hfield, hname⟩ := List.mem_map.1 hmem
    obtain ⟨⟨later, w⟩, hlater, rfl⟩ := List.mem_map.1 hfield
    have hspelled := Key.spelled_mem later naming
    exact hkey later (List.mem_map_of_mem hlater) _ (Key.spelled_mem key naming) (hname ▸ hspelled)

end Written

/-- A reader of fields undoes a writer of members. This is how the round trip of every record of a
document is assembled: its keys are separate, its fields are read back from its members, and its
members hold what can be written. -/
theorem Inverts.of_members {ofFields : Fields → Checked α} {json : α → Json}
    {members : α → List (Key × Json)} {naming : Naming}
    (hjson : ∀ a, json a = .object (written naming (members a)))
    (hseparate : ∀ a, Separate ((members a).map Prod.fst))
    (hread : ∀ a, P a → ofFields (written naming (members a)) = .valid a)
    (hregular : ∀ a, P a → ∀ member ∈ members a, member.2.Regular Number.Fits) :
    Inverts (object ofFields) json P where
  read_write a ha := by
    rw [hjson]
    exact hread a ha
  ne_null a := by
    rw [hjson]
    simp
  regular a ha := by
    rw [hjson]
    exact regular_written (hseparate a) naming (hregular a ha)

/-! ### Values that may be missing -/

/-- The four writers of values that may be missing are `orNull` for a writer of values. From here on
only `orNull` is spoken of. -/
theorem text?_eq (a : Option String) : Json.text? a = orNull .string a := by
  cases a <;> rfl

theorem json?_eq [Named α] (a : Option α) :
    Named.json? a = orNull (fun a => .string (Named.name a)) a := by
  cases a <;> rfl

theorem number?_eq (a : Option Number) : Json.number? a = orNull .number a := by
  cases a <;> rfl

theorem texts?_eq (a : Option (List String)) :
    Json.texts? a = orNull (fun texts => .array (texts.map .string)) a := by
  cases a <;> rfl

theorem styleJson?_eq (a : Option FreeStyle) :
    FreeStyle.json? a = orNull (fun style => .object (styleMembers style)) a := by
  cases a <;> rfl

@[simp] theorem regular_orNull_string (a : Option String) :
    (orNull .string a).Regular Number.Fits :=
  inverts_text.regular_orNull a fun _ _ => trivial

@[simp] theorem regular_orNull_name [Named α] [LawfulNamed α] (a : Option α) :
    (orNull (fun a => .string (Named.name a)) a).Regular Number.Fits :=
  (inverts_oneOf true).regular_orNull a fun _ _ => trivial

end Schema

open Schema

/-! ## What a node says about itself -/

/-- A heading level is written as its number and read from it. -/
theorem Level.inverts : Inverts read (fun level => .nat level.number) fun _ => True where
  read_write level _ := by cases level <;> rfl
  ne_null _ := by simp [Json.nat]
  regular level _ := by
    apply Json.regular_number.2
    cases level <;> decide

namespace Link

def members (link : Link) : List (Key × Json) :=
  [(.word "text", .string link.text), (.word "href", .string link.href)]

/-- The two names of a link are different. So it is for every kind of object below, by a look at its
list of keys: no spelling of one is a spelling of another. -/
theorem separate (link : Link) : Separate (link.members.map Prod.fst) := by
  show Separate [.word "text", .word "href"]
  decide

/-- A link is read from its members: each of them is found and read as it was written. -/
theorem ofFields_members (link : Link) : ofFields (written .camelCase link.members) = .valid link := by
  have htext : required (.word "text") Schema.text (written .camelCase link.members)
      = .valid link.text :=
    required_written inverts_text link.separate _ trivial (by simp [members])
  have hhref : required (.word "href") Schema.text (written .camelCase link.members)
      = .valid link.href :=
    required_written inverts_text link.separate _ trivial (by simp [members])
  rw [ofFields, htext, hhref]
  rfl

/-- A link is read as it was written, in either way of writing, since its names are single words. -/
theorem inverts : Inverts (object ofFields) json fun _ => True :=
  .of_members (fun _ => rfl) separate (fun link _ => link.ofFields_members) (by simp [members])

end Link

namespace Attributes

variable (naming : Naming)

def members (a : Attributes) : List (Key × Json) :=
  [(.word "level", orNull (fun level => .nat level.number) a.level),
    (.word "src", orNull .string a.src),
    (.word "alt", orNull .string a.alt),
    (.word "width", orNull .number a.width),
    (.word "height", orNull .number a.height),
    (.word "href", orNull .string a.href),
    (.word "variant", orNull (fun a => .string (Named.name a)) a.variant),
    (.word "ordered", orNull .bool a.ordered),
    (.word "items", orNull (fun texts => .array (texts.map .string)) a.items),
    (.word "links", orNull (fun links => .array (links.map Link.json)) a.links),
    (⟨"fontSize", "font_size"⟩, orNull (fun a => .string (Named.name a)) a.fontSize),
    (⟨"textAlign", "text_align"⟩, orNull (fun a => .string (Named.name a)) a.textAlign),
    (⟨"backgroundColor", "background_color"⟩, orNull .string a.backgroundColor),
    (⟨"textColor", "text_color"⟩, orNull .string a.textColor),
    (.word "padding", orNull (fun a => .string (Named.name a)) a.padding)]

/-- The fifteen attributes have thirty names at most, and no name stands for two of them. -/
theorem separate (a : Attributes) : Separate (a.members.map Prod.fst) := by
  show Separate [.word "level", .word "src", .word "alt", .word "width", .word "height",
    .word "href", .word "variant", .word "ordered", .word "items", .word "links",
    ⟨"fontSize", "font_size"⟩, ⟨"textAlign", "text_align"⟩,
    ⟨"backgroundColor", "background_color"⟩, ⟨"textColor", "text_color"⟩, .word "padding"]
  simp [Separate, Key.word]

/-- The writer of attributes writes them member by member. It spells two words the same way as
`Key.spelled` does, which is checked for each of the two ways of writing. -/
theorem json_eq (a : Attributes) : a.json naming = .object (written naming a.members) := by
  rw [json]
  simp only [text?_eq, json?_eq, number?_eq, texts?_eq]
  cases naming <;> rfl

/-- **Attributes are read from their members.** Only the two sizes are numbers of any length, and
these have to be short. -/
theorem ofFields_members (a : Attributes) (ha : a.Fitting) :
    ofFields (written naming a.members) = .valid a := by
  -- all texts are found alike, and so are all words
  have htext : ∀ {key : Key} {b : Option String}, (key, orNull .string b) ∈ a.members →
      optional key text (written naming a.members) = .valid b :=
    optional_text_written a.separate naming
  have hword : ∀ {β : Type} [Named β] [LawfulNamed β] {key : Key} {b : Option β},
      (key, orNull (fun b => .string (Named.name b)) b) ∈ a.members →
        optional key (oneOf false) (written naming a.members) = .valid b :=
    optional_oneOf_written a.separate naming
  have hlevel : optional (.word "level") Level.read (written naming a.members) = .valid a.level :=
    optional_written Level.inverts a.separate naming (fun _ _ => trivial) (by simp [members])
  have hsrc : optional (.word "src") text (written naming a.members) = .valid a.src :=
    htext (by simp [members])
  have halt : optional (.word "alt") text (written naming a.members) = .valid a.alt :=
    htext (by simp [members])
  have hwidth : optional (.word "width") number (written naming a.members) = .valid a.width :=
    optional_written inverts_number a.separate naming ha.1 (by simp [members])
  have hheight : optional (.word "height") number (written naming a.members) = .valid a.height :=
    optional_written inverts_number a.separate naming ha.2 (by simp [members])
  have hhref : optional (.word "href") text (written naming a.members) = .valid a.href :=
    htext (by simp [members])
  have hvariant : optional (.word "variant") (oneOf false) (written naming a.members)
      = .valid a.variant := hword (by simp [members])
  have hordered : optional (.word "ordered") flag (written naming a.members) = .valid a.ordered :=
    optional_written inverts_flag a.separate naming (fun _ _ => trivial) (by simp [members])
  have hitems : optional (.word "items") (array text) (written naming a.members) = .valid a.items :=
    optional_written inverts_text.array a.separate naming (fun _ _ _ _ => trivial)
      (by simp [members])
  have hlinks : optional (.word "links") (array (object Link.ofFields)) (written naming a.members)
      = .valid a.links :=
    optional_written Link.inverts.array a.separate naming (fun _ _ _ _ => trivial)
      (by simp [members])
  have hfontSize : optional ⟨"fontSize", "font_size"⟩ (oneOf false) (written naming a.members)
      = .valid a.fontSize := hword (by simp [members])
  have htextAlign : optional ⟨"textAlign", "text_align"⟩ (oneOf false) (written naming a.members)
      = .valid a.textAlign := hword (by simp [members])
  have hbackground : optional ⟨"backgroundColor", "background_color"⟩ text (written naming a.members)
      = .valid a.backgroundColor := htext (by simp [members])
  have hcolor : optional ⟨"textColor", "text_color"⟩ text (written naming a.members)
      = .valid a.textColor := htext (by simp [members])
  have hpadding : optional (.word "padding") (oneOf false) (written naming a.members)
      = .valid a.padding := hword (by simp [members])
  rw [ofFields, hlevel, hsrc, halt, hwidth, hheight, hhref, hvariant, hordered, hitems, hlinks,
    hfontSize, htextAlign, hbackground, hcolor, hpadding]
  rfl

/-- The values of attributes can be written: the two sizes if they are short enough, all others
always. -/
theorem regular_members (a : Attributes) (ha : a.Fitting) :
    ∀ member ∈ a.members, member.2.Regular Number.Fits := by
  have hlevel := Level.inverts.regular_orNull a.level fun _ _ => trivial
  have hwidth := inverts_number.regular_orNull a.width ha.1
  have hheight := inverts_number.regular_orNull a.height ha.2
  have hordered := inverts_flag.regular_orNull a.ordered fun _ _ => trivial
  have hitems := inverts_text.array.regular_orNull a.items fun _ _ _ _ => trivial
  have hlinks := Link.inverts.array.regular_orNull a.links fun _ _ _ _ => trivial
  simp [members, hlevel, hwidth, hheight, hordered, hitems, hlinks]

/-- Attributes with sizes that are not too long are read as they were written. -/
theorem inverts : Inverts read (json naming) Fitting :=
  .of_members (json_eq naming) separate (ofFields_members naming) regular_members

end Attributes

/-! ## Nodes -/

namespace Node

variable (naming : Naming)

def members (node : Node) : List (Key × Json) :=
  [(.word "type", .string node.type),
    (.word "content", orNull .string node.content),
    (.word "attributes", node.attributes.json naming),
    (.word "children", jsonIn naming node.children),
    (⟨"motionIntent", "motion_intent"⟩, orNull (fun a => .string (Named.name a)) node.motion),
    (.word "style", orNull (fun style => .object (styleMembers style)) node.style),
    (⟨"className", "class_name"⟩, orNull .string node.className)]

/-- No name of a member of a node is a name of another one. -/
theorem separate (node : Node) : Separate ((node.members naming).map Prod.fst) := by
  show Separate [.word "type", .word "content", .word "attributes", .word "children",
    ⟨"motionIntent", "motion_intent"⟩, .word "style", ⟨"className", "class_name"⟩]
  simp [Separate, Key.word]

/-- The writer of nodes writes them member by member, with the children as one array or null. -/
theorem json_eq (node : Node) : node.json naming = .object (written naming (node.members naming)) := by
  obtain ⟨type, content, attributes, children, motion, style, className⟩ := node
  rw [json]
  simp only [text?_eq, json?_eq, styleJson?_eq]
  cases naming <;> rfl

/-- The children of a node are those of its last member with their name. The reader goes through all
members for the sake of its recursion, and takes the one that no later member replaces. -/
theorem readChildren_eq (fields : Fields) :
    readChildren fields = (fields.last? "children").elim (.valid none)
      fun v => (readList? v).within (.key "children") := by
  induction fields with
  | nil => rfl
  | cons field rest ih =>
    obtain ⟨key, v⟩ := field
    rw [readChildren, Fields.last?]
    -- either a later member has the name, or this one is the last that could have it
    by_cases hlater : "children" ∈ Fields.keys rest
    · have hfound : Fields.last? rest "children" ≠ none :=
        fun hnone => Fields.last?_eq_none_iff.1 hnone hlater
      obtain ⟨w, hw⟩ := Option.ne_none_iff_exists'.1 hfound
      rw [if_neg fun h => h.2 (h.1 ▸ hlater), ih, hw]
      rfl
    · have hnone := Fields.last?_eq_none_iff.2 hlater
      by_cases hkey : key = "children"
      · rw [if_pos ⟨hkey, hkey ▸ hlater⟩, hnone, if_pos hkey, hkey]
        rfl
      · rw [if_neg fun h => hkey h.1, ih, hnone, if_neg hkey]
        rfl

/-- The children that are read are the ones that were written, and no other member is taken for
them. -/
theorem readChildren_members (node : Node) :
    readChildren (written naming (node.members naming))
      = (readList? (jsonIn naming node.children)).within (.key "children") := by
  have hmem : (.word "children", jsonIn naming node.children) ∈ node.members naming := by
    simp [members]
  have hname : "children" = (Key.word "children").spelled naming := by cases naming <;> rfl
  have hfound : (written naming (node.members naming)).last? "children"
      = some (jsonIn naming node.children) :=
    (last?_written (node.separate naming) hmem naming List.mem_cons_self).trans (if_pos hname)
  rw [readChildren_eq, hfound, Option.elim_some]

/-- A node is read from its members, given what is read for its children. These have a proof of
their own, by induction (`read_json`). -/
theorem ofFields_members (node : Node) (h : node.Plain) :
    ofFields (written naming (node.members naming)) (.valid node.children) = .valid node := by
  have htype : required (.word "type") text (written naming (node.members naming))
      = .valid node.type :=
    required_written inverts_text (node.separate naming) naming trivial (by simp [members])
  have hcontent : optional (.word "content") text (written naming (node.members naming))
      = .valid node.content :=
    optional_text_written (node.separate naming) naming (by simp [members])
  have hattributes : withDefault {} (.word "attributes") Attributes.read
      (written naming (node.members naming)) = .valid node.attributes :=
    withDefault_written (Attributes.inverts naming) (node.separate naming) naming h.1
      (by simp [members]) {}
  have hmotion : optional ⟨"motionIntent", "motion_intent"⟩ (oneOf true)
      (written naming (node.members naming)) = .valid node.motion :=
    optional_oneOf_written (node.separate naming) naming (by simp [members])
  have hstyle : optional (.word "style") (map text) (written naming (node.members naming))
      = .valid node.style :=
    optional_written inverts_style (node.separate naming) naming h.2 (by simp [members])
  have hclass : optional ⟨"className", "class_name"⟩ text (written naming (node.members naming))
      = .valid node.className :=
    optional_text_written (node.separate naming) naming (by simp [members])
  rw [ofFields, htype, hcontent, hattributes, hmotion, hstyle, hclass]
  cases node
  rfl

mutual

/-- **A node is read as it was written.** By induction on the tree, along with children: the members
of a node are found by their names, and each of them is read back by its own lemma. -/
theorem read_json : ∀ node : Node, node.Regular → read (node.json naming) = .valid node
  | ⟨type, content, attributes, children, motion, style, className⟩, h => by
    obtain ⟨hplain, hbelow⟩ := List.forall_mem_cons.1 h
    have hchildren : readList? (jsonIn naming children) = .valid children :=
      readList?_jsonIn children hbelow
    rw [json_eq, read, readChildren_members, hchildren]
    exact ofFields_members naming _ hplain

/-- The children of a node are read as they were written: null if there are none, an array
otherwise. -/
theorem readList?_jsonIn :
    ∀ children : Option (List Node), (∀ m ∈ preorderIn children, m.Plain) →
      readList? (jsonIn naming children) = .valid children
  | none, _ => rfl
  | some nodes, h => by
    rw [jsonIn, readList?, readItems_jsonAll nodes 0 h]
    rfl

/-- Nodes one after the other are read back, whatever position the first of them has. -/
theorem readItems_jsonAll :
    ∀ (nodes : List Node) (position : Nat), (∀ m ∈ preorderAll nodes, m.Plain) →
      readItems position (jsonAll naming nodes) = .valid nodes
  | [], _, _ => rfl
  | node :: rest, position, h => by
    obtain ⟨hnode, hrest⟩ := List.forall_mem_append.1 h
    rw [jsonAll, readItems, read_json node hnode, readItems_jsonAll rest (position + 1) hrest]
    rfl

end

mutual

/-- **What is written for a node can be written as a text that is read again**, down to the nodes
below it: keys stand once in every object, and no integer is too long. -/
theorem regular_json : ∀ node : Node, node.Regular → (node.json naming).Regular Number.Fits
  | ⟨type, content, attributes, children, motion, style, className⟩, h => by
    obtain ⟨hplain, hbelow⟩ := List.forall_mem_cons.1 h
    have hattributes := (Attributes.inverts naming).regular attributes hplain.1
    have hchildren := regular_jsonIn children hbelow
    have hstyle := inverts_style.regular_orNull style hplain.2
    rw [json_eq]
    apply regular_written (separate naming _)
    simp [members, hattributes, hchildren, hstyle]

/-- What is written for the children of a node is regular, by induction along with nodes. -/
theorem regular_jsonIn :
    ∀ children : Option (List Node), (∀ m ∈ preorderIn children, m.Plain) →
      (jsonIn naming children).Regular Number.Fits
  | none, _ => Json.regular_null
  | some nodes, h => Json.regular_array.2 (regular_jsonAll nodes h)

theorem regular_jsonAll :
    ∀ nodes : List Node, (∀ m ∈ preorderAll nodes, m.Plain) →
      ∀ v ∈ jsonAll naming nodes, v.Regular Number.Fits
  | [], _ => List.forall_mem_nil _
  | node :: rest, h => by
    obtain ⟨hnode, hrest⟩ := List.forall_mem_append.1 h
    exact List.forall_mem_cons.2 ⟨regular_json node hnode, regular_jsonAll rest hrest⟩

end

/-- A node is read as it was written if what it and the nodes below it say can be written. -/
theorem inverts : Inverts read (json naming) Regular where
  read_write := read_json naming
  ne_null node := by
    rw [json_eq]
    simp
  regular := regular_json naming

/-- Nodes are written one by one. The writer of nodes has a function of its own for lists since it
calls itself there. -/
theorem jsonAll_eq_map (nodes : List Node) : jsonAll naming nodes = nodes.map (json naming) := by
  induction nodes with
  | nil => rfl
  | cons node rest ih => rw [jsonAll, ih, List.map_cons]

end Node

/-! ## Regions -/

namespace Layout

variable (naming : Naming)

def members (layout : Layout) : List (Key × Json) :=
  [(.word "type", .string (Named.name layout.kind)),
    (.word "columns", orNull .int layout.columns),
    (.word "gap", orNull (fun a => .string (Named.name a)) layout.gap),
    (⟨"contentWidth", "content_width"⟩, orNull .string layout.contentWidth),
    (⟨"verticalAlign", "vertical_align"⟩,
      orNull (fun a => .string (Named.name a)) layout.verticalAlign)]

/-- No name of a member of a layout is a name of another one. -/
theorem separate (layout : Layout) : Separate (layout.members.map Prod.fst) := by
  show Separate [.word "type", .word "columns", .word "gap", ⟨"contentWidth", "content_width"⟩,
    ⟨"verticalAlign", "vertical_align"⟩]
  simp [Separate, Key.word]

/-- The writer of layouts writes them member by member. -/
theorem json_eq (layout : Layout) : layout.json naming = .object (written naming layout.members) := by
  rw [json]
  simp only [text?_eq, json?_eq]
  cases naming <;> rfl

/-- A layout is read from its members. Of these only the number of columns is an integer of any
length. -/
theorem ofFields_members (layout : Layout) (h : ∀ n ∈ layout.columns, (Number.int n).Fits) :
    ofFields (written naming layout.members) = .valid layout := by
  have hkind : required (.word "type") (oneOf false) (written naming layout.members)
      = .valid layout.kind :=
    required_written (inverts_oneOf false) layout.separate naming trivial (by simp [members])
  have hcolumns : optional (.word "columns") integer (written naming layout.members)
      = .valid layout.columns :=
    optional_written inverts_integer layout.separate naming h (by simp [members])
  have hgap : optional (.word "gap") (oneOf false) (written naming layout.members)
      = .valid layout.gap := optional_oneOf_written layout.separate naming (by simp [members])
  have hwidth : optional ⟨"contentWidth", "content_width"⟩ text (written naming layout.members)
      = .valid layout.contentWidth :=
    optional_text_written layout.separate naming (by simp [members])
  have halign : optional ⟨"verticalAlign", "vertical_align"⟩ (oneOf false)
      (written naming layout.members) = .valid layout.verticalAlign :=
    optional_oneOf_written layout.separate naming (by simp [members])
  rw [ofFields, hkind, hcolumns, hgap, hwidth, halign]
  rfl

/-- A layout is read as it was written if its number of columns is not too long. -/
theorem inverts :
    Inverts (object ofFields) (json naming) fun layout =>
      ∀ n ∈ layout.columns, (Number.int n).Fits := by
  refine .of_members (json_eq naming) separate (ofFields_members naming) fun layout h => ?_
  have hcolumns := inverts_integer.regular_orNull layout.columns h
  simp [members, hcolumns]

end Layout

namespace Background

def members (background : Background) : List (Key × Json) :=
  [(.word "type", .string (Named.name background.kind)), (.word "value", .string background.value)]

theorem separate (background : Background) : Separate (background.members.map Prod.fst) := by
  show Separate [.word "type", .word "value"]
  decide

/-- A background is read from its members, a word and a text. -/
theorem ofFields_members (background : Background) :
    ofFields (written .camelCase background.members) = .valid background := by
  have hkind : required (.word "type") (oneOf false) (written .camelCase background.members)
      = .valid background.kind :=
    required_written (inverts_oneOf false) background.separate _ trivial (by simp [members])
  have hvalue : required (.word "value") text (written .camelCase background.members)
      = .valid background.value :=
    required_written inverts_text background.separate _ trivial (by simp [members])
  rw [ofFields, hkind, hvalue]
  rfl

/-- A background is read as it was written, in either way of writing. -/
theorem inverts : Inverts (object ofFields) json fun _ => True :=
  .of_members (fun _ => rfl) separate (fun background _ => background.ofFields_members) (by simp [members])

end Background

namespace Section

variable (naming : Naming)

def members (s : Section) : List (Key × Json) :=
  [(⟨"sectionIntent", "section_intent"⟩, .string s.intent),
    (.word "layout", s.layout.json naming),
    (.word "children", .array (s.children.map (Node.json naming))),
    (⟨"motionIntent", "motion_intent"⟩, orNull (fun a => .string (Named.name a)) s.motion),
    (.word "background", orNull Background.json s.background),
    (.word "style", orNull (fun style => .object (styleMembers style)) s.style),
    (⟨"className", "class_name"⟩, orNull .string s.className)]

/-- No name of a member of a section is a name of another one. -/
theorem separate (s : Section) : Separate ((s.members naming).map Prod.fst) := by
  show Separate [⟨"sectionIntent", "section_intent"⟩, .word "layout", .word "children",
    ⟨"motionIntent", "motion_intent"⟩, .word "background", .word "style",
    ⟨"className", "class_name"⟩]
  simp [Separate, Key.word]

/-- The writer of sections writes them member by member, the children by the writer of nodes. -/
theorem json_eq (s : Section) : s.json naming = .object (written naming (s.members naming)) := by
  rw [json]
  simp only [text?_eq, json?_eq, styleJson?_eq, Node.jsonAll_eq_map]
  cases naming <;> rfl

/-- **A section is read from its members**: layout, children and background by their own readers,
all others as words and texts. -/
theorem ofFields_members (s : Section) (h : s.Regular) :
    ofFields (written naming (s.members naming)) = .valid s := by
  -- each member is read back from the field that its name leads to, whatever the naming
  have hintent : withDefault "generic" ⟨"sectionIntent", "section_intent"⟩ text
      (written naming (s.members naming)) = .valid s.intent :=
    withDefault_written inverts_text (s.separate naming) naming trivial (by simp [members]) _
  have hlayout : required (.word "layout") (object Layout.ofFields)
      (written naming (s.members naming)) = .valid s.layout :=
    required_written (Layout.inverts naming) (s.separate naming) naming h.columns
      (by simp [members])
  have hchildren : withDefault [] (.word "children") (array Node.read)
      (written naming (s.members naming)) = .valid s.children :=
    withDefault_written (Node.inverts naming).array (s.separate naming) naming h.children
      (by simp [members]) _
  have hmotion : optional ⟨"motionIntent", "motion_intent"⟩ (oneOf true)
      (written naming (s.members naming)) = .valid s.motion :=
    optional_oneOf_written (s.separate naming) naming (by simp [members])
  have hbackground : optional (.word "background") (object Background.ofFields)
      (written naming (s.members naming)) = .valid s.background :=
    optional_written Background.inverts (s.separate naming) naming (fun _ _ => trivial)
      (by simp [members])
  have hstyle : optional (.word "style") (map text) (written naming (s.members naming))
      = .valid s.style :=
    optional_written inverts_style (s.separate naming) naming h.style (by simp [members])
  have hclass : optional ⟨"className", "class_name"⟩ text (written naming (s.members naming))
      = .valid s.className := optional_text_written (s.separate naming) naming (by simp [members])
  rw [ofFields, hintent, hlayout, hchildren, hmotion, hbackground, hstyle, hclass]
  rfl

/-- The values of a section can be written. This comes down to its layout, its children and its
style. -/
theorem regular_members (s : Section) (h : s.Regular) :
    ∀ member ∈ s.members naming, member.2.Regular Number.Fits := by
  have hlayout := (Layout.inverts naming).regular s.layout h.columns
  have hchildren := (Node.inverts naming).array.regular s.children h.children
  have hbackground := Background.inverts.regular_orNull s.background fun _ _ => trivial
  have hstyle := inverts_style.regular_orNull s.style h.style
  simp only [members, List.forall_mem_cons]
  exact ⟨Json.regular_string _, hlayout, hchildren, regular_orNull_name _, hbackground, hstyle,
    regular_orNull_string _, List.forall_mem_nil _⟩

/-- A section is read as it was written if what stands in it can be written. -/
theorem inverts : Inverts read (json naming) Regular :=
  .of_members (json_eq naming) (separate naming) (ofFields_members naming) (regular_members naming)

end Section

/-! ## Design tokens -/

namespace Colors

def members (colors : Colors) : List (Key × Json) :=
  [(.word "primary", .string colors.primary),
    (.word "secondary", .string colors.secondary),
    (.word "background", .string colors.background),
    (.word "foreground", .string colors.foreground),
    (.word "accent", orNull .string colors.accent),
    (.word "muted", orNull .string colors.muted)]

theorem separate (colors : Colors) : Separate (colors.members.map Prod.fst) := by
  show Separate [.word "primary", .word "secondary", .word "background", .word "foreground",
    .word "accent", .word "muted"]
  simp [Separate, Key.word]

theorem json_eq (colors : Colors) : colors.json = .object (written .camelCase colors.members) := by
  rw [json]
  simp only [text?_eq]
  rfl

/-- Colors are read from their members, the four that have to be there and the two that may be
missing. -/
theorem ofFields_members (colors : Colors) :
    ofFields (written .camelCase colors.members) = .valid colors := by
  have hprimary : required (.word "primary") text (written .camelCase colors.members)
      = .valid colors.primary :=
    required_written inverts_text colors.separate _ trivial (by simp [members])
  have hsecondary : required (.word "secondary") text (written .camelCase colors.members)
      = .valid colors.secondary :=
    required_written inverts_text colors.separate _ trivial (by simp [members])
  have hbackground : required (.word "background") text (written .camelCase colors.members)
      = .valid colors.background :=
    required_written inverts_text colors.separate _ trivial (by simp [members])
  have hforeground : required (.word "foreground") text (written .camelCase colors.members)
      = .valid colors.foreground :=
    required_written inverts_text colors.separate _ trivial (by simp [members])
  have haccent : optional (.word "accent") text (written .camelCase colors.members)
      = .valid colors.accent := optional_text_written colors.separate _ (by simp [members])
  have hmuted : optional (.word "muted") text (written .camelCase colors.members)
      = .valid colors.muted := optional_text_written colors.separate _ (by simp [members])
  rw [ofFields, hprimary, hsecondary, hbackground, hforeground, haccent, hmuted]
  rfl

/-- Colors are read as they were written. All of them are texts, so there is no condition. -/
theorem inverts : Inverts (object ofFields) json fun _ => True :=
  .of_members json_eq separate (fun colors _ => colors.ofFields_members) (by simp [members])

end Colors

namespace Fonts

def members (fonts : Fonts) : List (Key × Json) :=
  [(.word "heading", orNull .string fonts.heading), (.word "body", orNull .string fonts.body)]

theorem separate (fonts : Fonts) : Separate (fonts.members.map Prod.fst) := by
  show Separate [.word "heading", .word "body"]
  decide

/-- Fonts are read from their members, either of which may be missing. -/
theorem ofFields_members (fonts : Fonts) :
    ofFields (written .camelCase fonts.members) = .valid fonts := by
  have hheading : optional (.word "heading") text (written .camelCase fonts.members)
      = .valid fonts.heading := optional_text_written fonts.separate _ (by simp [members])
  have hbody : optional (.word "body") text (written .camelCase fonts.members)
      = .valid fonts.body := optional_text_written fonts.separate _ (by simp [members])
  rw [ofFields, hheading, hbody]
  rfl

theorem inverts :
    Inverts read (fun fonts => .object (written .camelCase fonts.members)) fun _ => True :=
  .of_members (fun _ => rfl) separate (fun fonts _ => fonts.ofFields_members) (by simp [members])

end Fonts

namespace Tokens

variable (naming : Naming)

def members (tokens : Tokens) : List (Key × Json) :=
  [(.word "colors", tokens.colors.json),
    (.word "fonts", .object (written .camelCase tokens.fonts.members)),
    (⟨"borderRadius", "border_radius"⟩, orNull (fun a => .string (Named.name a)) tokens.radius)]

/-- No name of a member of the design tokens is a name of another one. -/
theorem separate (tokens : Tokens) : Separate (tokens.members.map Prod.fst) := by
  show Separate [.word "colors", .word "fonts", ⟨"borderRadius", "border_radius"⟩]
  decide

/-- The writer of design tokens writes them member by member. -/
theorem json_eq (tokens : Tokens) : tokens.json naming = .object (written naming tokens.members) := by
  rw [json]
  simp only [text?_eq, json?_eq]
  cases naming <;> rfl

/-- Design tokens are read from their members. The fonts have a default, which is not needed since
they are always written. -/
theorem ofFields_members (tokens : Tokens) :
    ofFields (written naming tokens.members) = .valid tokens := by
  have hcolors : required (.word "colors") (object Colors.ofFields) (written naming tokens.members)
      = .valid tokens.colors :=
    required_written Colors.inverts tokens.separate naming trivial (by simp [members])
  have hfonts : withDefault {} (.word "fonts") Fonts.read (written naming tokens.members)
      = .valid tokens.fonts :=
    withDefault_written Fonts.inverts tokens.separate naming trivial (by simp [members]) _
  have hradius : optional ⟨"borderRadius", "border_radius"⟩ (oneOf false)
      (written naming tokens.members) = .valid tokens.radius :=
    optional_oneOf_written tokens.separate naming (by simp [members])
  rw [ofFields, hcolors, hfonts, hradius]
  rfl

theorem inverts : Inverts read (json naming) fun _ => True := by
  refine .of_members (json_eq naming) separate (fun tokens _ => tokens.ofFields_members naming)
    fun tokens _ => ?_
  simp only [members, List.forall_mem_cons]
  exact ⟨Colors.inverts.regular _ trivial, Fonts.inverts.regular _ trivial, regular_orNull_name _,
    List.forall_mem_nil _⟩

end Tokens

/-! ## Documents -/

namespace Metadata

variable (naming : Naming)

def members (metadata : Metadata) : List (Key × Json) :=
  [(.word "title", .string metadata.title),
    (.word "description", orNull .string metadata.description),
    (⟨"sourceUrl", "source_url"⟩, orNull .string metadata.sourceUrl)]

theorem separate (metadata : Metadata) : Separate (metadata.members.map Prod.fst) := by
  show Separate [.word "title", .word "description", ⟨"sourceUrl", "source_url"⟩]
  decide

/-- The metadata of a page is read from its members. -/
theorem ofFields_members (metadata : Metadata) :
    ofFields (written naming metadata.members) = .valid metadata := by
  have htitle : required (.word "title") text (written naming metadata.members)
      = .valid metadata.title :=
    required_written inverts_text metadata.separate naming trivial (by simp [members])
  have hdescription : optional (.word "description") text (written naming metadata.members)
      = .valid metadata.description :=
    optional_text_written metadata.separate naming (by simp [members])
  have hsource : optional ⟨"sourceUrl", "source_url"⟩ text (written naming metadata.members)
      = .valid metadata.sourceUrl :=
    optional_text_written metadata.separate naming (by simp [members])
  rw [ofFields, htitle, hdescription, hsource]
  rfl

/-- The metadata of a page is read as it was written. -/
theorem inverts :
    Inverts (object ofFields) (fun metadata => .object (written naming metadata.members))
      fun _ => True :=
  .of_members (fun _ => rfl) separate (fun metadata _ => metadata.ofFields_members naming)
    (by simp [members])

end Metadata

namespace Document

variable (naming : Naming)

def members (document : Document) : List (Key × Json) :=
  [(.word "version", .string (Named.name Version.current)),
    (.word "metadata", .object (written naming document.metadata.members)),
    (⟨"designTokens", "design_tokens"⟩, document.tokens.json naming),
    (.word "header", orNull (Section.json naming) document.header),
    (.word "sections", .array (document.body.map (Section.json naming))),
    (.word "footer", orNull (Section.json naming) document.footer),
    (⟨"customCSS", "custom_css"⟩, orNull .string document.stylesheet)]

/-- No name of a member of a document is a name of another one. -/
theorem separate (document : Document) : Separate ((document.members naming).map Prod.fst) := by
  show Separate [.word "version", .word "metadata", ⟨"designTokens", "design_tokens"⟩,
    .word "header", .word "sections", .word "footer", ⟨"customCSS", "custom_css"⟩]
  simp [Separate, Key.word]

/-- The writer of documents writes them member by member, the version first. -/
theorem json_eq (document : Document) :
    document.json naming = .object (written naming (document.members naming)) := by
  rw [json]
  simp only [text?_eq]
  cases naming <;> rfl

/-- The header of a document that can be written can be written, if there is one. -/
theorem Regular.header {document : Document} (h : document.Regular) :
    ∀ s ∈ document.header, s.Regular :=
  fun s hs => h.regions s (by simp [Document.regions, Option.mem_def.1 hs])

theorem Regular.footer {document : Document} (h : document.Regular) :
    ∀ s ∈ document.footer, s.Regular :=
  fun s hs => h.regions s (by simp [Document.regions, Option.mem_def.1 hs])

theorem Regular.body {document : Document} (h : document.Regular) :
    document.body ≠ [] ∧ ∀ s ∈ document.body, s.Regular :=
  ⟨h.body_ne_nil, fun s hs => h.regions s (by simp [Document.regions, hs])⟩

/-- **A document is read from its members.** The version is read as well and then dropped: there is
only one. -/
theorem ofFields_members (document : Document) (h : document.Regular) :
    ofFields (written naming (document.members naming)) = .valid document := by
  -- each field is looked up among the written members, and read back
  have hversion : withDefault .current (.word "version") (oneOf false)
      (written naming (document.members naming)) = .valid Version.current :=
    withDefault_written (inverts_oneOf false) (document.separate naming) naming trivial
      (by simp [members]) _
  have hmetadata : required (.word "metadata") (object Metadata.ofFields)
      (written naming (document.members naming)) = .valid document.metadata :=
    required_written (Metadata.inverts naming) (document.separate naming) naming trivial
      (by simp [members])
  have htokens : required ⟨"designTokens", "design_tokens"⟩ Tokens.read
      (written naming (document.members naming)) = .valid document.tokens :=
    required_written (Tokens.inverts naming) (document.separate naming) naming trivial
      (by simp [members])
  have hheader : optional (.word "header") Section.read (written naming (document.members naming))
      = .valid document.header :=
    optional_written (Section.inverts naming) (document.separate naming) naming h.header
      (by simp [members])
  have hbody : required (.word "sections") (filledArray Section.read)
      (written naming (document.members naming)) = .valid document.body :=
    required_written (Section.inverts naming).filledArray (document.separate naming) naming h.body
      (by simp [members])
  have hfooter : optional (.word "footer") Section.read (written naming (document.members naming))
      = .valid document.footer :=
    optional_written (Section.inverts naming) (document.separate naming) naming h.footer
      (by simp [members])
  have hstylesheet : optional ⟨"customCSS", "custom_css"⟩ text
      (written naming (document.members naming)) = .valid document.stylesheet :=
    optional_text_written (document.separate naming) naming (by simp [members])
  rw [ofFields, hversion, hmetadata, htokens, hheader, hbody, hfooter, hstylesheet]
  rfl

/-- The values of a document can be written. What is to be said about its regions was said of
sections. -/
theorem regular_members (document : Document) (h : document.Regular) :
    ∀ member ∈ document.members naming, member.2.Regular Number.Fits := by
  have hmetadata := (Metadata.inverts naming).regular document.metadata trivial
  have htokens := (Tokens.inverts naming).regular document.tokens trivial
  have hheader := (Section.inverts naming).regular_orNull document.header h.header
  have hbody := (Section.inverts naming).filledArray.regular document.body h.body
  have hfooter := (Section.inverts naming).regular_orNull document.footer h.footer
  simp only [members, List.forall_mem_cons]
  exact ⟨Json.regular_string _, hmetadata, htokens, hheader, hbody, hfooter,
    regular_orNull_string _, List.forall_mem_nil _⟩

/-- A document is read as it was written if it can be written at all. -/
theorem inverts : Inverts read (json naming) Regular :=
  .of_members (json_eq naming) (separate naming) (ofFields_members naming) (regular_members naming)

/-- A document that can be written loads again from its text, if that nests no deeper than is read.
The text is read as the value that was written, and the value as the document. -/
theorem load_compact {document : Document} (h : document.Regular)
    (hdepth : (document.json naming).depth ≤ depthLimit) :
    load (document.json naming).compact = .valid document := by
  -- the text is read as the value that it was written for, and the value as the document
  obtain ⟨hkeyed, hfits⟩ := (inverts naming).regular document h
  have hparse : Json.read? .all (some depthLimit) (document.json naming).compact
      = some (document.json naming) := by
    apply Json.read?_compact hkeyed hfits
    rintro room ⟨⟩
    exact hdepth
  rw [load, readText, hparse]
  exact (inverts naming).read_write document h

/-- **A document that was loaded and written loads as the same document.** In either way of writing
the names of its members, the JSON value of a loaded document is read as this document, and so is the
text of that value if it nests no deeper than is read. -/
theorem load_json {text : String} {document : Document} (h : load text = .valid document) :
    read (document.json naming) = .valid document
      ∧ ((document.json naming).depth ≤ depthLimit →
        load (document.json naming).compact = .valid document) := by
  have hregular := regular_of_load h
  have hread := (inverts naming).read_write document hregular
  exact ⟨hread, load_compact naming hregular⟩

/-- A page with an image whose width is no number is written with the names of the other way, and
loads again. -/
theorem load_json_imageDocument :
    load (Json.compact (imagePage (.float .nan))) = .valid (imageDocument (.float .nan))
      ∧ read ((imageDocument (.float .nan)).json .snakeCase) = .valid (imageDocument (.float .nan))
      ∧ load ((imageDocument (.float .nan)).json .snakeCase).compact
        = .valid (imageDocument (.float .nan)) := by
  have hload := load_imagePage (show (Number.float .nan).Fits from trivial)
  obtain ⟨hread, htext⟩ := load_json .snakeCase hload
  have hdepth : ((imageDocument (.float .nan)).json .snakeCase).depth ≤ depthLimit := by
    decide +kernel
  exact ⟨hload, hread, htext hdepth⟩

end Document

end BlockTheme
