import BlockTheme.Document.Reader
import BlockTheme.Proofs.Json.Reader

/-!
# What loading lets through

A loaded document can be written and read again (`Document.regular_of_load`): its integers are not
too long, no style has a property twice, and there is a section. The reader of JSON counts the digits
of integers, and the reader of fields those of integers that are given as texts. Of several members
with one key the reader of a style keeps one. What a reader gives is told from its parts
(`Schema.Checked.All`).
-/

namespace BlockTheme

open Schema (Checked)

namespace Schema

variable {α β : Type} {P : α → Prop} {Q : β → Prop}

/-- What holds of the value of a reading, if there is one. -/
def Checked.All (P : α → Prop) (c : Checked α) : Prop := ∀ a, c = .valid a → P a

/-- What holds of a value holds of the reading that gives it. -/
theorem Checked.All.valid {a : α} (h : P a) : (Checked.valid a).All P := by
  rintro _ ⟨⟩
  exact h

/-- A reading that gives no value can be said anything about. -/
theorem Checked.All.invalid (issues : List Issue) : (Checked.invalid issues : Checked α).All P := by
  rintro _ ⟨⟩

/-- What holds of the values of a function holds after it was applied to a reading. -/
theorem Checked.All.map {f : α → β} {c : Checked α} (h : c.All fun a => Q (f a)) :
    (f <$> c).All Q := by
  cases c with
  | valid a => exact .valid (h a rfl)
  | invalid issues => exact .invalid issues

/-- A function and its argument that are both read. -/
theorem Checked.All.seq {f : Checked (α → β)} {c : Checked α}
    (h : f.All fun g => c.All fun a => Q (g a)) : (f <*> c).All Q := by
  cases f with
  | valid g =>
    cases c with
    | valid a => exact .valid (h g rfl a rfl)
    | invalid issues => exact .invalid issues
  | invalid issues => cases c <;> exact .invalid _

/-- Going one step further out changes the issues of a reading and not its value. -/
theorem Checked.All.within {c : Checked α} (h : c.All P) (step : Step) : (c.within step).All P := by
  cases c with
  | valid a => exact h
  | invalid issues => exact .invalid _

/-! ## Readers -/

/-- The value that a key finds is one of those of the fields. -/
theorem short_of_find? {fields : Fields} (h : ∀ field ∈ fields, field.2.Short) {key : Key}
    {name : String} {v : Json} (hfind : key.find? fields = some (name, v)) : v.Short := by
  unfold Key.find? at hfind
  split at hfind
  · next w hw =>
    obtain ⟨-, rfl⟩ := Prod.mk.inj (Option.some.inj hfind)
    exact h _ (Fields.mem_of_last? hw)
  · obtain ⟨w, hw, heq⟩ := Option.map_eq_some_iff.1 hfind
    obtain ⟨-, rfl⟩ := Prod.mk.inj heq
    exact h _ (Fields.mem_of_last? hw)

/-- What holds of all values that a reader gives for what the reader of JSON lets through. -/
def Yields (read : Json → Checked α) (P : α → Prop) : Prop :=
  ∀ v, v.Short → (read v).All P

/-- What holds of all values that a reader of fields gives. -/
def FieldsYield (read : Fields → Checked α) (P : α → Prop) : Prop :=
  ∀ fields, (∀ field ∈ fields, field.2.Short) → (read fields).All P

/-- A value that may be null is null or one of those that the reader gives. -/
theorem Yields.nullable {read : Json → Checked α} (h : Yields read P) :
    Yields (nullable read) fun found => ∀ a ∈ found, P a := by
  intro v hv
  have hmap : (Checked.map some (read v)).All fun found => ∀ a ∈ found, P a := by
    refine .map fun a ha b hb => ?_
    exact Option.some.inj hb ▸ h v hv a ha
  cases v with
  | null => exact .valid (by simp)
  | _ => exact hmap

/-- All items are what the reader gives, wherever they stand. -/
theorem Yields.items {read : Json → Checked α} (h : Yields read P) :
    ∀ (values : List Json) (position : Nat), (∀ v ∈ values, v.Short) →
      (items read position values).All fun found => ∀ a ∈ found, P a
  | [], _, _ => .valid (List.forall_mem_nil _)
  | v :: rest, position, hvalues => by
    obtain ⟨hv, hrest⟩ := List.forall_mem_cons.1 hvalues
    have hvalue := (h v hv).within (.index position)
    have hitems := Yields.items h rest (position + 1) hrest
    rw [Schema.items]
    refine .seq (.map fun a ha found hfound => ?_)
    exact List.forall_mem_cons.2 ⟨hvalue a ha, hitems found hfound⟩

theorem Yields.array {read : Json → Checked α} (h : Yields read P) :
    Yields (array read) fun found => ∀ a ∈ found, P a := by
  intro v hv
  cases v with
  | array values => exact h.items values 0 (Json.short_array.1 hv)
  | _ => exact .invalid _

/-- An array that has to have an item has one. Without an item it is refused, after its items have
been looked at. -/
theorem Yields.filledArray {read : Json → Checked α} (h : Yields read P) :
    Yields (filledArray read) fun found => found ≠ [] ∧ ∀ a ∈ found, P a := by
  intro v hv
  have harray := h.array v hv
  cases v with
  | array values =>
    cases values with
    | nil => exact .invalid _
    | cons w rest =>
      -- an array with items is read as one
      have hne : (Schema.items read 0 (w :: rest)).All (· ≠ []) :=
        .seq (.map fun a _ found _ => List.cons_ne_nil a found)
      exact fun found hfound => ⟨hne found hfound, harray found hfound⟩
  | _ => exact .invalid _

/-- An object with fixed members gives what the reader of its fields gives. -/
theorem FieldsYield.object {read : Fields → Checked α} (h : FieldsYield read P) :
    Yields (object read) P := by
  intro v hv
  cases v with
  | object members => exact h members (Json.short_object.1 hv)
  | _ => exact .invalid _

/-- A member with a default gives what its reader gives, if the default is of this kind, too. -/
theorem Yields.withDefault {read : Json → Checked α} (h : Yields read P) {default : α}
    (hdefault : P default) (key : Key) : FieldsYield (withDefault default key read) P := by
  intro fields hfields
  unfold Schema.withDefault
  split
  · next name v hfind => exact (h v (short_of_find? hfields hfind)).within _
  · exact .valid hdefault

/-- A member that may be missing gives nothing or what its reader gives. -/
theorem Yields.optional {read : Json → Checked α} (h : Yields read P) (key : Key) :
    FieldsYield (optional key read) fun found => ∀ a ∈ found, P a :=
  h.nullable.withDefault (by simp) key

/-- A member that has to be there gives what its reader gives. -/
theorem Yields.required {read : Json → Checked α} (h : Yields read P) (key : Key) :
    FieldsYield (required key read) P := by
  intro fields hfields
  unfold Schema.required
  split
  · next name v hfind => exact (h v (short_of_find? hfields hfind)).within _
  · exact .invalid _

/-! ## Numbers -/

/-- **An integer that is given as a text is not too long.** The reader counts its digits after it
has taken zeros and separators away. -/
theorem fits_canonicalInteger {s : List Char} {n : Int} (h : Text.canonicalInteger s = .ok n) :
    (Number.int n).Fits := by
  unfold Text.canonicalInteger at h
  split at h
  next negative digits _ =>
    split at h
    · simp at h
    · simp at h
    · next hne _ =>
      split at h
      · simp at h
      · next hall =>
        split at h
        · simp at h
        · next hlength =>
          obtain rfl := Except.ok.inj h
          -- the digits are counted before they are read
          refine Json.fits_signed ⟨fun hnil => hne hnil, ?_⟩ (Nat.not_lt.1 hlength) negative
          simpa using hall

/-- A whole number fits, too, if blanks around it and zeros behind a point are allowed. -/
theorem fits_fieldInteger {s : List Char} {n : Int} (h : Text.fieldInteger s = .ok n) :
    (Number.int n).Fits := by
  unfold Text.fieldInteger at h
  split at h
  · simp at h
  · exact fits_canonicalInteger h
  · exact fits_canonicalInteger h

/-- A floating-point number that stands for an integer stands for a short one: below the largest
double there are no more than 309 digits. -/
theorem all_wholeNumber (x : Binary64) : (wholeNumber x).All fun n => (Number.int n).Fits := by
  intro n hn
  unfold wholeNumber at hn
  split at hn
  · split at hn
    · cases hn
    · next k _ =>
      split at hn
      · next hbound =>
        cases hn
        -- below 2^63 there are nineteen digits at most
        have hdigits : (Nat.toDigits 10 n.natAbs).length ≤ 19 :=
          (Nat.length_toDigits_le_iff (by decide) (by decide)).2 (hbound.trans (by decide))
        exact hdigits.trans (by decide)
      · cases hn
  · cases hn

/-- An integer that is given as a text is not too long either. The text may have more digits than an
integer of JSON, but only as zeros in front or behind a point. -/
theorem yields_integer : Yields integer fun n => (Number.int n).Fits := by
  intro v hv
  cases v with
  | number n =>
    cases n with
    | int n => exact .valid (Json.short_number.1 hv)
    | float x => exact all_wholeNumber x
  -- a flag counts as one or zero
  | bool b => exact .valid (by cases b <;> decide)
  | null => exact .invalid _
  | array values => exact .invalid _
  | object members => exact .invalid _
  -- a text is read as a whole number, whose digits are limited
  | string s =>
    intro n hn
    unfold integer at hn
    dsimp only at hn
    split at hn
    · next hfield =>
      obtain rfl := Checked.valid.inj hn
      exact fits_fieldInteger hfield
    · cases hn
    · cases hn

/-- A width or a height is not too long either, be it given as a number, a flag or a text. A text
that is no integer is read as a double, which has no length. -/
theorem yields_number : Yields number Number.Fits := by
  intro v hv
  cases v with
  | number n => exact .valid (Json.short_number.1 hv)
  | bool b => exact .valid (by cases b <;> decide)
  | null => exact .invalid _
  | array values => exact .invalid _
  | object members => exact .invalid _
  | string s =>
    intro n hn
    unfold number at hn
    dsimp only at hn
    split at hn
    · next k hk =>
      obtain rfl := Checked.valid.inj hn
      exact yields_integer (.string s) hv k hk
    · obtain rfl := Checked.valid.inj hn
      trivial
    · cases hn

/-! ## Maps -/

/-- The names after a name was given a value are the old ones, and this one. A name that was there
keeps its place and is not added again. -/
theorem mem_names_put (map : List (String × α)) (name : String) (a : α) (other : String) :
    other ∈ (put map name a).map Prod.fst ↔ other ∈ map.map Prod.fst ∨ other = name := by
  induction map with
  | nil => simp [put]
  | cons entry rest ih =>
    obtain ⟨first, b⟩ := entry
    rw [put]
    split
    · next heq =>
      subst heq
      simp only [List.map_cons, List.mem_cons]
      tauto
    · simp only [List.map_cons, List.mem_cons, ih, or_assoc]

theorem nodup_put {map : List (String × α)} (h : (map.map Prod.fst).Nodup) (name : String) (a : α) :
    ((put map name a).map Prod.fst).Nodup := by
  induction map with
  | nil => simp [put]
  | cons entry rest ih =>
    obtain ⟨first, b⟩ := entry
    obtain ⟨hfirst, hrest⟩ := List.nodup_cons.1 h
    rw [put]
    split
    · exact List.nodup_cons.2 ⟨hfirst, hrest⟩
    · next hne =>
      refine List.nodup_cons.2 ⟨fun hmem => ?_, ih hrest⟩
      exact ((mem_names_put rest name a first).1 hmem).elim hfirst hne

/-- Entries by name have each name once. -/
theorem nodup_byName (found : List (String × α)) : ((byName found).map Prod.fst).Nodup := by
  -- entries are put one after the other into a map that has each name once
  have hfold : ∀ (entries map : List (String × α)), (map.map Prod.fst).Nodup →
      ((entries.foldl (fun map entry => put map entry.1 entry.2) map).map Prod.fst).Nodup := by
    intro entries
    induction entries with
    | nil => exact fun map h => h
    | cons entry rest ih => exact fun map h => ih _ (nodup_put h entry.1 entry.2)
  exact hfold found [] List.nodup_nil

/-- A map that is read has each name once. -/
theorem yields_map (read : Json → Checked α) :
    Yields (map read) fun found => (found.map Prod.fst).Nodup := by
  intro v _
  cases v with
  | object members => exact .map fun found _ => nodup_byName found
  | _ => exact .invalid _

end Schema

/-! ## Documents -/

/-- A width and a height that are not too long. -/
def Attributes.Fitting (attributes : Attributes) : Prop :=
  (∀ n ∈ attributes.width, n.Fits) ∧ ∀ n ∈ attributes.height, n.Fits

/-- A style that has no property twice. -/
def FreeStyle.Distinct (style : FreeStyle) : Prop := (style.map Prod.fst).Nodup

open Schema (Yields FieldsYield)

/-- **The sizes in attributes that are read are not too long.** The other attributes are texts,
flags, words or small numbers. -/
theorem Attributes.fieldsYield : FieldsYield ofFields Fitting := by
  intro fields hfields
  have hsize : ∀ key, (Schema.optional key Schema.number fields).All fun found =>
      ∀ n ∈ found, n.Fits := fun key => Schema.yields_number.optional key fields hfields
  unfold ofFields
  repeat refine .seq ?_
  refine .map ?_
  intro level _ src _ alt _ width hwidth height hheight href _ variant _ ordered _ items _ links _
    fontSize _ textAlign _ backgroundColor _ textColor _ padding _
  exact ⟨hsize _ width hwidth, hsize _ height hheight⟩

/-- What a node says about itself can be written. -/
def Node.Plain (node : Node) : Prop :=
  node.attributes.Fitting ∧ ∀ style ∈ node.style, style.Distinct

/-- So can what the nodes below it say. -/
def Node.Regular (node : Node) : Prop := ∀ m ∈ node.preorder, m.Plain

/-- A node with no size that is too long, at it or below it. -/
def Node.Fitting (node : Node) : Prop := ∀ m ∈ node.preorder, m.attributes.Fitting

namespace Node

/-- A node that is read can be written if its children can. Everything else that a node holds is a
text, a motion, or a number that is no longer than was read. -/
theorem all_ofFields {fields : Fields} (hfields : ∀ field ∈ fields, field.2.Short)
    {children : Checked (Option (List Node))}
    (hchildren : children.All fun found => ∀ m ∈ preorderIn found, m.Plain) :
    (ofFields fields children).All Regular := by
  have hdefault : Attributes.Fitting {} := ⟨by simp, by simp⟩
  have hattributes := Attributes.fieldsYield.object.withDefault hdefault (.word "attributes") fields
    hfields
  have hstyle := (Schema.yields_map Schema.text).optional (.word "style") fields hfields
  unfold ofFields
  repeat refine .seq ?_
  refine .map ?_
  intro type _ content _ attributes hread found hfound motion _ style hmap className _
  exact List.forall_mem_cons.2 ⟨⟨hattributes attributes hread, hstyle style hmap⟩,
    hchildren found hfound⟩

mutual

/-- **A node that is read can be written.** By induction on the JSON value, which the reader goes
down into for the children. -/
theorem all_read : ∀ v : Json, v.Short → (read v).All Regular
  | .object members, h =>
    have hmembers := Json.short_object.1 h
    all_ofFields hmembers (all_readChildren members hmembers)
  | .null, _ | .bool _, _ | .number _, _ | .string _, _ | .array _, _ => .invalid _

/-- The children that the members of a node give are regular, whichever of the members with that
name is the last one. -/
theorem all_readChildren :
    ∀ members : List (String × Json), (∀ member ∈ members, member.2.Short) →
      (readChildren members).All fun found => ∀ m ∈ preorderIn found, m.Plain
  | [], _ => .valid (by simp [preorderIn])
  | (key, v) :: rest, h => by
    obtain ⟨hv, hrest⟩ := List.forall_mem_cons.1 h
    rw [readChildren]
    split
    · exact (all_readList? v hv).within _
    · exact all_readChildren rest hrest

/-- The children in an array are regular, and null stands for none. -/
theorem all_readList? :
    ∀ v : Json, v.Short →
      (readList? v).All fun found => ∀ m ∈ preorderIn found, m.Plain
  | .null, _ => .valid (by simp [preorderIn])
  | .array values, h => .map (all_readItems values 0 (Json.short_array.1 h))
  | .object _, _ | .bool _, _ | .number _, _ | .string _, _ => .invalid _

theorem all_readItems :
    ∀ (values : List Json) (position : Nat), (∀ v ∈ values, v.Short) →
      (readItems position values).All fun found => ∀ m ∈ preorderAll found, m.Plain
  | [], _, _ => .valid (by simp [preorderAll])
  | v :: rest, position, h => by
    obtain ⟨hv, hrest⟩ := List.forall_mem_cons.1 h
    have hnode := (all_read v hv).within (.index position)
    have hitems := all_readItems rest (position + 1) hrest
    rw [readItems]
    refine .seq (.map fun node hread found hfound => ?_)
    exact List.forall_mem_append.2 ⟨hnode node hread, hitems found hfound⟩

end

end Node

/-- A section with no size that is too long in it. -/
def Section.Fitting (s : Section) : Prop := ∀ node ∈ s.children, node.Fitting

/-- A section that can be written. -/
structure Section.Regular (s : Section) : Prop where
  columns : ∀ n ∈ s.layout.columns, (Number.int n).Fits
  children : ∀ node ∈ s.children, node.Regular
  style : ∀ style ∈ s.style, style.Distinct

/-- **A document that is read can be written, and it has a section**: an array without items is
refused. -/
theorem Layout.fieldsYield :
    FieldsYield ofFields fun layout => ∀ n ∈ layout.columns, (Number.int n).Fits := by
  intro fields hfields
  have hcolumns := Schema.yields_integer.optional (.word "columns") fields hfields
  unfold ofFields
  repeat refine .seq ?_
  refine .map ?_
  intro kind _ columns hread gap _ contentWidth _ verticalAlign _
  exact hcolumns columns hread

/-- **A section that is read can be written**: its layout, its nodes and its style. Each field
yields what can be written, by its own lemma above. -/
theorem Section.fieldsYield : FieldsYield ofFields Regular := by
  intro fields hfields
  have hread : Yields Node.read Node.Regular := Node.all_read
  have hdefault : ∀ node ∈ ([] : List Node), node.Regular := List.forall_mem_nil _
  have hlayout := Layout.fieldsYield.object.required (.word "layout") fields hfields
  have hchildren := hread.array.withDefault hdefault (.word "children") fields hfields
  have hstyle := (Schema.yields_map Schema.text).optional (.word "style") fields hfields
  unfold ofFields
  repeat refine .seq ?_
  refine .map ?_
  intro intent _ layout hkind children hfound motion _ background _ style hmap className _
  exact ⟨hlayout layout hkind, hchildren children hfound, hstyle style hmap⟩

/-- A document that can be written, and that has a section. -/
structure Document.Regular (document : Document) : Prop where
  body_ne_nil : document.body ≠ []
  regions : ∀ s ∈ document.regions, s.Regular

namespace Document

/-- **So can a document that is read, and it has a section**: an array without items is refused. -/
theorem fieldsYield : FieldsYield ofFields Regular := by
  intro fields hfields
  have hread : Yields Section.read Section.Regular := Section.fieldsYield.object
  have hregion := fun key => hread.optional key fields hfields
  have hbody := hread.filledArray.required (.word "sections") fields hfields
  unfold ofFields
  repeat refine .seq ?_
  refine .map ?_
  intro version _ metadata _ tokens _ header hheader body hfound footer hfooter stylesheet _
  refine ⟨(hbody body hfound).1, ?_⟩
  simp only [regions, List.forall_mem_append, Option.mem_toList]
  exact ⟨⟨hregion _ header hheader, (hbody body hfound).2⟩, hregion _ footer hfooter⟩

/-- **A loaded document can be written.** What the schema lets through is what `Regular` asks for.
-/
theorem regular_of_load {text : String} {document : Document} (h : load text = .valid document) :
    document.Regular := by
  unfold load readText at h
  -- the text is JSON, or nothing is loaded from it
  split at h
  · next v hparse => exact fieldsYield.object v (Json.short_read? hparse) document h
  · cases h

/-- **No size in a loaded document is too long.** The text of a document is read by a reader that
lets no longer integer through. -/
theorem fitting_of_load {text : String} {document : Document} (h : load text = .valid document) :
    ∀ s ∈ document.regions, s.Fitting := by
  intro s hs node hnode m hm
  exact (((regular_of_load h).regions s hs).children node hnode m hm).1

end Document

end BlockTheme
