import BlockTheme.Proofs.Recovery.Leaves
import BlockTheme.Proofs.Text.Marks
import BlockTheme.Proofs.Text.Normal

/-!
# What keys tell

A leaf has a key for what it says (`Content`): an element and a node that say the same have the same
key (`tagKey?_eq`, `nodeLeaf?_eq`), and a key tells the kind of its leaf. The key of a heading, a
paragraph or an image tells everything that the leaf says (`Content.eq_of_key_eq`). That of a button
or a list tells it only up to bars (`Content.key_eq_iff`): the texts of these leaves are joined by
bars, and a bar in one of the texts is read as a joint as well.
-/

namespace BlockTheme.Recovery

/-! ## What leaves say -/

/-- What a leaf says, as far as its key goes. -/
inductive Content where
  | heading (level : Level) (words : List String)
  | paragraph (words : List String)
  | image (source : String)
  | button (words : List String) (address : String)
  | list (ordered : Bool) (items : List String)
  deriving DecidableEq, Repr

/-- The items of a list without needless blanks, and without those that are blank altogether. -/
def statedItems (items : List String) : List String :=
  (items.map Text.normalizeText).filter fun item => !item.isEmpty

end Recovery

open Recovery (Content statedItems)

/-- What an element tells, if it is a leaf. -/
def Html.Tag.tells? (tag : Html.Tag) : Option Content :=
  let words := Text.wordsOf tag.text
  let items := statedItems ((tag.inside.filter fun inner => inner.name == "li").map Html.Tag.text)
  match tag.name with
  | "h1" => some (.heading .one words)
  | "h2" => some (.heading .two words)
  | "h3" => some (.heading .three words)
  | "h4" => some (.heading .four words)
  | "h5" => some (.heading .five words)
  | "h6" => some (.heading .six words)
  | "p" => some (.paragraph words)
  | "img" => some (.image ((tag.attribute? "src").getD ""))
  | "a" => some (.button words ((tag.attribute? "href").getD ""))
  -- a button without a link has no address
  | "button" => some (.button words "")
  | "ul" => some (.list false items)
  | "ol" => some (.list true items)
  | _ => none

/-- What a node tells, if it is a leaf. A heading without a level is one of level two. -/
def Node.tells? (node : Node) : Option Content :=
  let words := Text.wordsOf (node.content.getD "")
  let a := node.attributes
  match node.kind? with
  | some .heading => some (.heading (a.level.getD .two) words)
  | some .paragraph => some (.paragraph words)
  | some .image => some (.image (a.src.getD ""))
  | some .button => some (.button words (a.href.getD ""))
  | some .list => some (.list (a.ordered.getD false) (statedItems (a.items.getD [])))
  | _ => none

namespace Recovery.Content

def kind : Content → LeafKind
  | .heading _ _ => .heading
  | .paragraph _ => .paragraph
  | .image _ => .image
  | .button _ _ => .button
  | .list _ _ => .list

/-- Whether a leaf says nothing: the address of a button alone does not count. -/
def IsEmpty : Content → Prop
  | .heading _ words | .paragraph words | .button words _ => words = []
  | .image source => source = ""
  | .list _ items => items = []

instance : DecidablePred IsEmpty
  | .heading _ words | .paragraph words | .button words _ =>
    inferInstanceAs (Decidable (words = []))
  | .image source => inferInstanceAs (Decidable (source = ""))
  | .list _ items => inferInstanceAs (Decidable (items = []))

/-- The key of a leaf that says something. -/
def key : Content → String
  | .heading level words => headingName level ++ "|" ++ " ".intercalate words
  | .paragraph words => "p|" ++ " ".intercalate words
  | .image source => "img|" ++ source
  | .button words address => "btn|" ++ " ".intercalate words ++ "|" ++ address
  | .list ordered items =>
    "list|" ++ (if ordered then "ol" else "ul") ++ "|" ++ "|".intercalate items

def key? (c : Content) : Option String := if c.IsEmpty then none else some c.key

/-- Contents of elements and nodes: words are words, and no item is empty. -/
def WellFormed : Content → Prop
  | .heading _ words | .paragraph words | .button words _ => ∀ word ∈ words, Text.IsWord word
  | .image _ => True
  | .list _ items => ∀ item ∈ items, item ≠ ""

end Recovery.Content

namespace Recovery

/-- No stated item is empty: the empty ones are dropped after the blanks are. -/
theorem ne_empty_of_mem_statedItems {items : List String} {item : String}
    (h : item ∈ statedItems items) : item ≠ "" := by
  simpa using (List.mem_filter.1 h).2

/-! ## Keys of elements and nodes -/

/-- A text that is empty once its needless blanks are gone has no words, and the other way round. -/
theorem isEmpty_normalizeText (s : String) :
    (Text.normalizeText s).isEmpty = true ↔ Text.wordsOf s = [] := by
  rw [String.isEmpty_iff, Text.normalizeText_eq_empty_iff]

/-- Joined items are empty exactly if no item says anything. The bars between them do not count, as
an item that says nothing is dropped before it is joined. -/
theorem isEmpty_joinItems (items : List String) :
    (joinItems items).isEmpty = true ↔ statedItems items = [] := by
  have hjoin : joinItems items = "|".intercalate (statedItems items) := rfl
  rw [String.isEmpty_iff, hjoin]
  refine ⟨fun h => ?_, fun h => by rw [h]; rfl⟩
  cases hstated : statedItems items with
  | nil => rfl
  | cons item rest =>
    -- an item that is not empty stays in the join
    have hitem := ne_empty_of_mem_statedItems (hstated ▸ List.mem_cons_self)
    rw [hstated, ← String.toList_inj, String.toList_intercalate] at h
    cases rest <;> simp [hitem] at h

/-- The key of a heading is made of its words, and the key of a heading without words is missing.
The other arguments of `leafKey?` do not count for it. -/
theorem leafKey?_heading {tag : String} {level : Level} (hname : headingName level = tag)
    (text extra : String) :
    leafKey? tag text extra = (Content.heading level (Text.wordsOf text)).key? := by
  subst hname
  have hkind : LeafKind.ofTag? (headingName level) = some .heading := by cases level <;> decide
  simp only [leafKey?, hkind, Content.key?, Content.key, ← Text.normalizeText_eq]
  exact if_congr (isEmpty_normalizeText text) rfl rfl

/-- The key of a paragraph is made of its words, behind the name of the element. -/
theorem leafKey?_paragraph (text extra : String) :
    leafKey? "p" text extra = (Content.paragraph (Text.wordsOf text)).key? := by
  have hkind : LeafKind.ofTag? "p" = some .paragraph := by decide
  simp only [leafKey?, hkind, Content.key?, Content.key, ← Text.normalizeText_eq]
  exact if_congr (isEmpty_normalizeText text) rfl rfl

/-- An image has the key of its source, whatever text stands with it. -/
theorem leafKey?_image (text source : String) :
    leafKey? "img" text source = (Content.image source).key? := by
  have hkind : LeafKind.ofTag? "img" = some .image := by decide
  simp only [leafKey?, hkind, Content.key?, Content.key]
  exact if_congr String.isEmpty_iff rfl rfl

/-- A button has the key of its words and its address. `tag` is one of the two names for buttons:
either way the key is the same, so that a link and a button can have one key. -/
theorem leafKey?_button {tag : String} (hkind : LeafKind.ofTag? tag = some .button)
    (text address : String) :
    leafKey? tag text address = (Content.button (Text.wordsOf text) address).key? := by
  simp only [leafKey?, hkind, Content.key?, Content.key, ← Text.normalizeText_eq]
  exact if_congr (isEmpty_normalizeText text) rfl rfl

/-- A list has the key of its items. The text of the element does not count, only that of its items
does. -/
theorem leafKey?_list {tag : String} {ordered : Bool}
    (hname : (if ordered then "ol" else "ul") = tag) (text : String) (items : List String) :
    leafKey? tag text (joinItems items) = (Content.list ordered (statedItems items)).key? := by
  subst hname
  have hkind : LeafKind.ofTag? (if ordered then "ol" else "ul") = some .list := by
    cases ordered <;> decide
  simp only [leafKey?, hkind, Content.key?, Content.key]
  exact if_congr (isEmpty_joinItems items) rfl rfl

/-- The key of an element that is neither an image nor a list is made of its text. -/
theorem tagKey?_of_text {tag : Html.Tag}
    (h : LeafKind.ofTag? tag.name ≠ some .image ∧ LeafKind.ofTag? tag.name ≠ some .list) :
    tagKey? tag = leafKey? tag.name tag.text
      (if tag.name = "a" then (tag.attribute? "href").getD "" else "") := by
  unfold tagKey?
  split
  · next himage => exact absurd himage h.1
  · next hlist => exact absurd hlist h.2
  · rfl

/-- The six names for headings are dealt with at once: `headingName` gives them by their level. -/
theorem tagKey?_heading {tag : Html.Tag} (level : Level) (hname : tag.name = headingName level) :
    tagKey? tag = (Content.heading level (Text.wordsOf tag.text)).key? := by
  have hkind : LeafKind.ofTag? (headingName level) = some .heading := by cases level <;> decide
  rw [tagKey?_of_text (by rw [hname, hkind]; decide), leafKey?_heading hname.symm]

/-- An element `p` has the key of a paragraph of its words. -/
theorem tagKey?_paragraph {tag : Html.Tag} (hname : tag.name = "p") :
    tagKey? tag = (Content.paragraph (Text.wordsOf tag.text)).key? := by
  rw [tagKey?_of_text (by rw [hname]; decide), hname, leafKey?_paragraph]

/-- An element `img` has the key of an image of its `src`; without one its source is empty, and the
key missing. -/
theorem tagKey?_image {tag : Html.Tag} (hname : tag.name = "img") :
    tagKey? tag = (Content.image ((tag.attribute? "src").getD "")).key? := by
  have hkind : LeafKind.ofTag? "img" = some .image := by decide
  unfold tagKey?
  rw [hname, hkind]
  exact leafKey?_image _ _

/-- An element for a button has the key of its words, and of its `href` if it is a link. -/
theorem tagKey?_button {tag : Html.Tag} (hkind : LeafKind.ofTag? tag.name = some .button) :
    tagKey? tag = (Content.button (Text.wordsOf tag.text)
      (if tag.name = "a" then (tag.attribute? "href").getD "" else "")).key? := by
  rw [tagKey?_of_text (by rw [hkind]; decide), leafKey?_button hkind]

/-- An element for a list has the key of the texts of the `li` elements inside it, also of those
that stand deeper. -/
theorem tagKey?_list {tag : Html.Tag} (ordered : Bool)
    (hname : tag.name = if ordered then "ol" else "ul") :
    tagKey? tag = (Content.list ordered (statedItems ((tag.inside.filter fun inner =>
      inner.name == "li").map Html.Tag.text))).key? := by
  have hkind : LeafKind.ofTag? tag.name = some .list := by rw [hname]; cases ordered <;> decide
  unfold tagKey?
  rw [hkind]
  exact leafKey?_list hname.symm "" _

/-- **An element that says something has the key of this, and one that says nothing has none.** One
case for each name of an element. -/
theorem tagKey?_eq {tag : Html.Tag} {c : Content} (h : tag.tells? = some c) :
    tagKey? tag = c.key? := by
  -- one case for each name, in the order of `Html.Tag.tells?`
  unfold Html.Tag.tells? at h
  simp only at h
  split at h
  case h_1 hname => exact Option.some.inj h ▸ tagKey?_heading .one (hname.trans (by decide))
  case h_2 hname => exact Option.some.inj h ▸ tagKey?_heading .two (hname.trans (by decide))
  case h_3 hname => exact Option.some.inj h ▸ tagKey?_heading .three (hname.trans (by decide))
  case h_4 hname => exact Option.some.inj h ▸ tagKey?_heading .four (hname.trans (by decide))
  case h_5 hname => exact Option.some.inj h ▸ tagKey?_heading .five (hname.trans (by decide))
  case h_6 hname => exact Option.some.inj h ▸ tagKey?_heading .six (hname.trans (by decide))
  case h_7 hname => exact Option.some.inj h ▸ tagKey?_paragraph hname
  case h_8 hname => exact Option.some.inj h ▸ tagKey?_image hname
  case h_9 hname =>
    rw [tagKey?_button (by rw [hname]; decide), if_pos hname, Option.some.inj h]
  case h_10 hname =>
    rw [tagKey?_button (by rw [hname]; decide), if_neg (by rw [hname]; decide), Option.some.inj h]
  case h_11 hname => exact Option.some.inj h ▸ tagKey?_list false hname
  case h_12 hname => exact Option.some.inj h ▸ tagKey?_list true hname
  case h_13 => exact absurd h (by simp)

/-- **The leaf that a node is has the kind and the key of what the node says.** The counterpart of
`tagKey?_eq` for nodes: both go through `Content`, and so they can be compared. -/
theorem nodeLeaf?_eq (node : Node) :
    nodeLeaf? node = node.tells?.bind fun c => c.key?.map fun key => (c.kind, key) := by
  unfold nodeLeaf? Node.tells?
  cases node.kind? with
  | none => rfl
  | some kind =>
    cases kind with
    | heading => simp only [leafKey?_heading rfl]; rfl
    | paragraph => simp only [leafKey?_paragraph]; rfl
    | image => simp only [leafKey?_image]; rfl
    | button => simp only [leafKey?_button (by decide : LeafKind.ofTag? "button" = _)]; rfl
    | list => simp only [leafKey?_list rfl]; rfl
    | spacer | group | navigation => rfl

/-- A leaf has a key exactly if it says something, and then the one of what it says. -/
theorem Content.key?_eq_some_iff {c : Content} {key : String} :
    c.key? = some key ↔ ¬c.IsEmpty ∧ c.key = key := by
  rw [Content.key?]
  split <;> simp [*]

/-- The leaf of a node, told in both directions. It is what the claims about keys are proved with:
from a kind and a key it gives a content, and with `Content.key_eq_iff` contents can be compared. -/
theorem nodeLeaf?_eq_some_iff {node : Node} {kind : LeafKind} {key : String} :
    nodeLeaf? node = some (kind, key) ↔
      ∃ c, node.tells? = some c ∧ ¬c.IsEmpty ∧ c.kind = kind ∧ c.key = key := by
  rw [nodeLeaf?_eq, Option.bind_eq_some_iff]
  simp only [Option.map_eq_some_iff, Content.key?_eq_some_iff, Prod.mk.injEq]
  grind

/-- A keyed node says something, and has the key of it. -/
theorem nodeLeaf?_of_tells {node : Node} {c : Content} (h : node.tells? = some c)
    (hkeyed : nodeLeaf? node ≠ none) : ¬c.IsEmpty ∧ nodeLeaf? node = some (c.kind, c.key) := by
  obtain ⟨⟨kind, key⟩, hleaf⟩ := Option.ne_none_iff_exists'.1 hkeyed
  obtain ⟨_, htells, hfull, rfl, rfl⟩ := nodeLeaf?_eq_some_iff.1 hleaf
  obtain rfl := Option.some.inj (htells.symm.trans h)
  exact ⟨hfull, hleaf⟩

/-- The elements whose keys have one text at most behind the name. -/
def plainElements : List String := ["h1", "h2", "h3", "h4", "h5", "h6", "p", "img"]

/-- Every plain element tells something, though it may be nothing (`Content.IsEmpty`), and is
neither a button nor a list, so that `Content.eq_of_key_eq` applies to it. -/
theorem exists_tells?_of_plain {tag : Html.Tag} (h : tag.name ∈ plainElements) :
    ∃ c, tag.tells? = some c ∧ c.kind ≠ .button ∧ c.kind ≠ .list := by
  simp only [plainElements, List.mem_cons, List.not_mem_nil, or_false] at h
  rcases h with h | h | h | h | h | h | h | h <;> simp [Html.Tag.tells?, h, Content.kind]

/-- What an element tells is well formed: words come from `Text.wordsOf`, and items are stated ones.
-/
theorem wellFormed_of_tag_tells? {tag : Html.Tag} {c : Content} (h : tag.tells? = some c) :
    c.WellFormed := by
  have hwords : ∀ word ∈ Text.wordsOf tag.text, Text.IsWord word :=
    fun _ hword => Text.isWord_of_mem_wordsOf hword
  unfold Html.Tag.tells? at h
  simp only at h
  split at h
  case h_13 => exact absurd h (by simp)
  case h_8 => exact Option.some.inj h ▸ trivial
  case h_11 => exact Option.some.inj h ▸ fun _ hitem => ne_empty_of_mem_statedItems hitem
  case h_12 => exact Option.some.inj h ▸ fun _ hitem => ne_empty_of_mem_statedItems hitem
  all_goals exact Option.some.inj h ▸ hwords

/-- What a node tells is well formed for the same two reasons: its words come from `Text.wordsOf`,
and its items are stated ones. -/
theorem wellFormed_of_node_tells? {node : Node} {c : Content} (h : node.tells? = some c) :
    c.WellFormed := by
  have hwords : ∀ word ∈ Text.wordsOf (node.content.getD ""), Text.IsWord word :=
    fun _ hword => Text.isWord_of_mem_wordsOf hword
  unfold Node.tells? at h
  simp only at h
  split at h
  case h_3 => exact Option.some.inj h ▸ trivial
  case h_5 => exact Option.some.inj h ▸ fun _ hitem => ne_empty_of_mem_statedItems hitem
  case h_6 => exact absurd h (by simp)
  all_goals exact Option.some.inj h ▸ hwords

/-! ## What keys tell of their leaves -/

namespace Content

/-- A key tells the kind of its leaf. -/
theorem ofKey?_key (c : Content) : LeafKind.ofKey? c.key = some c.kind := by
  cases c with
  | heading level words =>
    have hhead : (headingName level).toList.head? = some 'h' := by cases level <;> decide
    simp [key, LeafKind.ofKey?, kind, hhead]
  | paragraph words => simp [key, LeafKind.ofKey?, kind]
  | image source => simp [key, LeafKind.ofKey?, kind]
  | button words address => simp [key, LeafKind.ofKey?, kind]
  | list ordered items => simp [key, LeafKind.ofKey?, kind]

/-- Leaves of one key are of one kind: the name at the beginning of the key says which. -/
theorem kind_eq_of_key_eq {a b : Content} (h : a.key = b.key) : a.kind = b.kind := by
  have hkind : some a.kind = some b.kind := by rw [← ofKey?_key, ← ofKey?_key, h]
  exact Option.some.inj hkind

/-- Words that give one text when joined by blanks are the same words: there are no blanks in them,
so that the text can be cut again. -/
theorem eq_of_intercalate_eq {words words' : List String} (h : ∀ word ∈ words, Text.IsWord word)
    (h' : ∀ word ∈ words', Text.IsWord word)
    (heq : " ".intercalate words = " ".intercalate words') : words = words' := by
  rw [← Text.wordsOf_intercalate h, heq, Text.wordsOf_intercalate h']

theorem level_eq_of_headingName_eq {level level' : Level}
    (h : headingName level = headingName level') : level = level' := by
  cases level <;> cases level' <;> first | rfl | exact absurd h (by decide)

/-- **The key of a heading, a paragraph or an image tells everything that the leaf says.** Words can
be read back from the text that they are joined to, as no word has a blank in it. -/
theorem eq_of_key_eq {a b : Content} (ha : a.WellFormed) (hb : b.WellFormed)
    (hplain : a.kind ≠ .button ∧ a.kind ≠ .list) (h : a.key = b.key) : a = b := by
  have hkind := kind_eq_of_key_eq h
  cases a with
  | heading level words =>
    cases b with
    | heading level' words' =>
      -- the names of headings are of one length, so that both keys can be cut behind the name
      have hlength : ∀ level, (headingName level).toList.length = 2 := fun level => by
        cases level <;> decide
      rw [key, key, ← String.toList_inj, String.append_assoc, String.append_assoc] at h
      simp only [String.toList_append] at h
      obtain ⟨hname, hrest⟩ := List.append_inj h (by rw [hlength, hlength])
      have hwords : " ".intercalate words = " ".intercalate words' :=
        String.toList_inj.1 (List.append_cancel_left hrest)
      rw [level_eq_of_headingName_eq (String.toList_inj.1 hname), eq_of_intercalate_eq ha hb hwords]
    | paragraph _ | image _ | button _ _ | list _ _ => simp [kind] at hkind
  | paragraph words =>
    cases b with
    | paragraph words' =>
      -- the names in front are the same text, and the words can be read back from the rest
      rw [eq_of_intercalate_eq ha hb (by simpa [key] using h)]
    | heading _ _ | image _ | button _ _ | list _ _ => simp [kind] at hkind
  | image source =>
    cases b with
    | image source' =>
      obtain rfl : source = source' := by simpa [key] using h
      rfl
    | heading _ _ | paragraph _ | button _ _ | list _ _ => simp [kind] at hkind
  | button _ _ => simp [kind] at hplain
  | list _ _ => simp [kind] at hplain

end Content

/-! ### Bars -/

/-- A text goes on, after another one and a bar, with what the address of the other one begins with
before a bar and its own address. -/
def RunsInto (text address text' address' : String) : Prop :=
  ∃ more, text = text' ++ "|" ++ more ∧ address' = more ++ "|" ++ address

/-- One half of `append_bar_eq_iff`: `more` is what the longer of the two texts has on top. Either
that is nothing, and the addresses are the same, or it starts with the bar that the other address
stands behind. -/
theorem eq_or_runsInto_of_append {text address text' address' : String} {more : List Char}
    (htext : text.toList = text'.toList ++ more)
    (haddress : '|' :: address'.toList = more ++ '|' :: address.toList) :
    (text = text' ∧ address = address') ∨ RunsInto text address text' address' := by
  cases more with
  | nil =>
    rw [List.append_nil, String.toList_inj] at htext
    rw [List.nil_append, List.cons.injEq, String.toList_inj] at haddress
    exact Or.inl ⟨htext, haddress.2.symm⟩
  | cons c more =>
    rw [List.cons_append, List.cons.injEq] at haddress
    obtain ⟨rfl, haddress⟩ := haddress
    refine Or.inr ⟨String.ofList more, ?_, ?_⟩
    · rw [← String.toList_inj, htext]
      simp
    · rw [← String.toList_inj, haddress]
      simp

/-- Two texts with addresses behind bars are the same without being joined from the same parts only
if one of the texts runs into the address of the other. -/
theorem append_bar_eq_iff {text address text' address' : String} :
    text ++ "|" ++ address = text' ++ "|" ++ address' ↔
      (text = text' ∧ address = address') ∨ RunsInto text address text' address'
        ∨ RunsInto text' address' text address := by
  constructor
  · intro h
    have hchars : text.toList ++ '|' :: address.toList
        = text'.toList ++ '|' :: address'.toList := by
      simpa using congrArg String.toList h
    -- one of the two texts is a beginning of the other
    rcases List.append_eq_append_iff.1 hchars with
      ⟨more, htext, haddress⟩ | ⟨more, htext, haddress⟩
    · rcases eq_or_runsInto_of_append htext haddress with ⟨rfl, rfl⟩ | hruns
      · exact Or.inl ⟨rfl, rfl⟩
      · exact Or.inr (Or.inr hruns)
    · rcases eq_or_runsInto_of_append htext haddress with hsame | hruns
      · exact Or.inl hsame
      · exact Or.inr (Or.inl hruns)
  · rintro (⟨rfl, rfl⟩ | ⟨more, rfl, rfl⟩ | ⟨more, rfl, rfl⟩)
    · rfl
    · simp only [String.append_assoc]
    · simp only [String.append_assoc]

/-- The texts of items, cut at the bars in them. -/
def barParts (items : List String) : List String :=
  items.flatMap fun item => (Text.splitAt '|' item.toList).map String.ofList

/-- Items are joined to the same text exactly if they have the same parts between bars. An item
without a bar is one part; so for such items the text says which they were. -/
theorem intercalate_bar_eq_iff {items items' : List String} (h : items ≠ []) (h' : items' ≠ []) :
    "|".intercalate items = "|".intercalate items' ↔ barParts items = barParts items' := by
  have hparts : ∀ items : List String, items ≠ [] →
      barParts items = (Text.splitAt '|' ("|".intercalate items).toList).map String.ofList := by
    intro items hitems
    have hchars : ("|".intercalate items).toList = ['|'].intercalate (items.map String.toList) :=
      String.toList_intercalate
    rw [hchars, Text.splitAt_intercalate '|' (by simpa using hitems)]
    simp [barParts, List.flatMap_map, List.map_flatMap]
  rw [hparts items h, hparts items' h']
  refine ⟨fun heq => by rw [heq], fun heq => ?_⟩
  have hlists := List.map_injective_iff.2 (fun _ _ => String.ofList_inj.1) heq
  exact String.toList_inj.1 (Text.splitAt_injective '|' hlists)

theorem barParts_eq_self {items : List String} (h : ∀ item ∈ items, '|' ∉ item.toList) :
    barParts items = items := by
  induction items with
  | nil => rfl
  | cons item rest ih =>
    obtain ⟨hitem, hrest⟩ := List.forall_mem_cons.1 h
    have hstep : barParts (item :: rest) =
        (Text.splitAt '|' item.toList).map String.ofList ++ barParts rest := List.flatMap_cons
    rw [hstep, ih hrest, Text.splitAt_of_not_mem hitem, List.map_singleton, String.ofList_toList]
    rfl

namespace Content

/-- What two leaves say differs at most in where a bar belongs: to the text of a button, to its
address or to the joint between them, and to an item of a list or to a joint. -/
def SameUpToBars : Content → Content → Prop
  | .button words address, .button words' address' =>
    (words = words' ∧ address = address')
      ∨ RunsInto (" ".intercalate words) address (" ".intercalate words') address'
      ∨ RunsInto (" ".intercalate words') address' (" ".intercalate words) address
  | .list ordered items, .list ordered' items' =>
    ordered = ordered' ∧ barParts items = barParts items'
  | c, d => c = d

/-- No bar stands in a text that a joint comes behind: an address is the last text of its key. -/
def HasNoBar : Content → Prop
  | .button words _ => ∀ word ∈ words, '|' ∉ word.toList
  | .list _ items => ∀ item ∈ items, '|' ∉ item.toList
  | _ => True

/-- Buttons, the kind whose keys are ambiguous because the text is joined with the address. -/
theorem button_key_eq_iff {words words' : List String} {address address' : String}
    (h : ∀ word ∈ words, Text.IsWord word) (h' : ∀ word ∈ words', Text.IsWord word) :
    (button words address).key = (button words' address').key ↔
      (button words address).SameUpToBars (button words' address') := by
  have hwords : " ".intercalate words = " ".intercalate words' ↔ words = words' :=
    ⟨eq_of_intercalate_eq h h', fun heq => by rw [heq]⟩
  have hkey : ∀ words address,
      (button words address).key = "btn|" ++ (" ".intercalate words ++ "|" ++ address) :=
    fun words address => by simp only [key, String.append_assoc]
  rw [hkey, hkey, String.append_right_inj, append_bar_eq_iff, hwords]
  rfl

/-- Lists, the other such kind, whose items are joined with each other. Without an item there would
be no key, and `"".splitAt` would give one part where there is no item. -/
theorem list_key_eq_iff {ordered ordered' : Bool} {items items' : List String} (h : items ≠ [])
    (h' : items' ≠ []) : (list ordered items).key = (list ordered' items').key ↔
      (list ordered items).SameUpToBars (list ordered' items') := by
  have hkey : ∀ ordered items, (list ordered items).key =
      "list|" ++ ((if ordered then "ol" else "ul") ++ ("|" ++ "|".intercalate items)) :=
    fun ordered items => by simp only [key, String.append_assoc]
  rw [hkey, hkey, String.append_right_inj, SameUpToBars, ← intercalate_bar_eq_iff h h']
  refine ⟨fun heq => ?_, fun ⟨hordered, hjoined⟩ => by rw [hordered, hjoined]⟩
  have hchars := congrArg String.toList heq
  cases ordered <;> cases ordered'
  case false.true | true.false => simp at hchars
  case false.false | true.true => exact ⟨rfl, by simpa using heq⟩

/-- **Leaves have the same key exactly if they say the same up to bars.** For buttons and lists this
is weaker than saying the same, and for all other kinds it is not. -/
theorem key_eq_iff {c d : Content} (hc : c.WellFormed) (hd : d.WellFormed) (hcfull : ¬c.IsEmpty)
    (hdfull : ¬d.IsEmpty) : c.key = d.key ↔ c.SameUpToBars d := by
  by_cases hkind : c.kind = d.kind
  -- keys of one kind can only be the same if the rest of them is
  · cases c with
    | heading _ _ | paragraph _ | image _ =>
      exact ⟨eq_of_key_eq hc hd (by simp [kind]), fun h => by rw [show _ = d from h]⟩
    | button _ _ =>
      cases d with
      | button _ _ => exact button_key_eq_iff hc hd
      | heading _ _ | paragraph _ | image _ | list _ _ => simp [kind] at hkind
    | list _ _ =>
      cases d with
      | list _ _ => exact list_key_eq_iff hcfull hdfull
      | heading _ _ | paragraph _ | image _ | button _ _ => simp [kind] at hkind
  -- keys of different kinds are different, and so are contents of different kinds
  · have hkey : c.key ≠ d.key := fun h => hkind (kind_eq_of_key_eq h)
    have hsame : c.SameUpToBars d ↔ c = d := by
      cases c <;> cases d <;> first | rfl | exact absurd rfl hkind
    exact iff_of_false hkey fun h => hkind (by rw [hsame.1 h])

/-- A text whose words have no bars does not run into an address: to come to the same key, the text
would have to hold the bar in front of the address. -/
theorem not_runsInto_of_words {words : List String} {address text' address' : String}
    (h : ∀ word ∈ words, '|' ∉ word.toList) :
    ¬RunsInto (" ".intercalate words) address text' address' := by
  rintro ⟨more, htext, -⟩
  have hchars : (" ".intercalate words).toList = [' '].intercalate (words.map String.toList) :=
    String.toList_intercalate
  have hbar : '|' ∈ [' '].intercalate (words.map String.toList) := by
    rw [← hchars, htext]
    simp
  -- a bar in a join with spaces is one in a word
  rw [← List.singleton_infix_iff, Text.infix_intercalate (by decide) (by decide)] at hbar
  obtain ⟨_, hpart, hbar⟩ := hbar
  obtain ⟨word, hword, rfl⟩ := List.mem_map.1 hpart
  exact h word hword ((List.singleton_infix_iff _ _).1 hbar)

/-- Without bars in their texts, leaves say the same up to bars only if they say the same. By cases
on what they say, since some of it takes up one part of a key and some takes up more. -/
theorem sameUpToBars_iff_eq {c d : Content} (hc : c.HasNoBar) (hd : d.HasNoBar) :
    c.SameUpToBars d ↔ c = d := by
  cases c with
  | heading _ _ | paragraph _ | image _ => rfl
  | button words address =>
    cases d with
    | button words' address' =>
      rw [SameUpToBars, or_iff_left (not_or_intro (not_runsInto_of_words hc)
        (not_runsInto_of_words hd)), button.injEq]
    | heading _ _ | paragraph _ | image _ | list _ _ => rfl
  | list ordered items =>
    cases d with
    | list ordered' items' =>
      rw [SameUpToBars, barParts_eq_self hc, barParts_eq_self hd, list.injEq]
    | heading _ _ | paragraph _ | image _ | button _ _ => rfl

end Content

/-! ## Leaves that are taken for one another -/

/-- **Two nodes with keys are the same leaf exactly if they say the same up to bars**, and if there
are no bars in what they say, exactly if they say the same. -/
theorem nodeLeaf?_eq_iff {a b : Node} {c d : Content} (ha : a.tells? = some c)
    (hb : b.tells? = some d) (hkeyed : nodeLeaf? a ≠ none) (hkeyed' : nodeLeaf? b ≠ none) :
    (nodeLeaf? a = nodeLeaf? b ↔ c.SameUpToBars d)
      ∧ (c.HasNoBar → d.HasNoBar → (nodeLeaf? a = nodeLeaf? b ↔ c = d)) := by
  obtain ⟨hcfull, hleaf⟩ := nodeLeaf?_of_tells ha hkeyed
  obtain ⟨hdfull, hleaf'⟩ := nodeLeaf?_of_tells hb hkeyed'
  have hkey : nodeLeaf? a = nodeLeaf? b ↔ c.key = d.key := by
    rw [hleaf, hleaf', Option.some.injEq, Prod.mk.injEq]
    exact ⟨And.right, fun h => ⟨Content.kind_eq_of_key_eq h, h⟩⟩
  have hsame := Content.key_eq_iff (wellFormed_of_node_tells? ha) (wellFormed_of_node_tells? hb)
    hcfull hdfull
  exact ⟨hkey.trans hsame, fun hc hd =>
    (hkey.trans hsame).trans (Content.sameUpToBars_iff_eq hc hd)⟩

/-- A button. -/
def buttonNode (text address : String) : Node :=
  ⟨"button", some text, { href := some address }, none, none, none, none⟩

/-- A list without an order. -/
def listNode (items : List String) : Node :=
  ⟨"list", none, { items := some items }, none, none, none, none⟩

/-- The bar in the item of the one list is where the items of the other one are joined. So one item
and two items have the same key. -/
theorem nodeLeaf?_eq_iff_barInItem :
    (listNode ["a|b", " "]).tells? = some (.list false ["a|b"])
      ∧ (listNode ["a ", " b"]).tells? = some (.list false ["a", "b"])
      ∧ nodeLeaf? (listNode ["a|b", " "]) ≠ none ∧ nodeLeaf? (listNode ["a ", " b"]) ≠ none
      ∧ (Content.list false ["a|b"]).SameUpToBars (.list false ["a", "b"])
      ∧ nodeLeaf? (listNode ["a|b", " "]) = nodeLeaf? (listNode ["a ", " b"]) := by
  have ha : (listNode ["a|b", " "]).tells? = some (.list false ["a|b"]) := by decide
  have hb : (listNode ["a ", " b"]).tells? = some (.list false ["a", "b"]) := by decide
  have hkeyed : nodeLeaf? (listNode ["a|b", " "]) ≠ none := by decide
  have hkeyed' : nodeLeaf? (listNode ["a ", " b"]) ≠ none := by decide
  have hsame : (Content.list false ["a|b"]).SameUpToBars (.list false ["a", "b"]) :=
    ⟨rfl, by decide⟩
  exact ⟨ha, hb, hkeyed, hkeyed', hsame, (nodeLeaf?_eq_iff ha hb hkeyed hkeyed').1.2 hsame⟩

/-- **Buttons that differ can have one key, and so can lists**: `a|b` with the address `c` has the
key of `a` with the address `b|c`, and the item `a|b` that of the items `a` and `b`. -/
theorem not_nodeLeaf?_eq_iff_tells?_eq :
    (nodeLeaf? (buttonNode "a|b" "c") = some (.button, "btn|a|b|c")
        ∧ nodeLeaf? (buttonNode "a" "b|c") = some (.button, "btn|a|b|c")
        ∧ (buttonNode "a|b" "c").tells? ≠ (buttonNode "a" "b|c").tells?)
      ∧ nodeLeaf? (listNode ["a|b"]) = some (.list, "list|ul|a|b")
      ∧ nodeLeaf? (listNode ["a", "b"]) = some (.list, "list|ul|a|b")
      ∧ (listNode ["a|b"]).tells? ≠ (listNode ["a", "b"]).tells? := by
  decide

/-- **An element and a node have one key**, if the element is a heading, a paragraph or an image,
exactly if both say the same, and not nothing. Whatever leaves they are, they have the same key, or
none, if they say the same. -/
theorem tagKey?_eq_nodeLeaf?_iff (tag : Html.Tag) (node : Node) :
    (tag.name ∈ plainElements →
        ((∃ kind key, tagKey? tag = some key ∧ nodeLeaf? node = some (kind, key)) ↔
          ∃ c, tag.tells? = some c ∧ node.tells? = some c ∧ ¬c.IsEmpty))
      ∧ ∀ c, tag.tells? = some c → node.tells? = some c →
        nodeLeaf? node = (tagKey? tag).map fun key => (c.kind, key) := by
  -- for every kind the element and the node have the key of the same content
  have hsame : ∀ c, tag.tells? = some c → node.tells? = some c →
      nodeLeaf? node = (tagKey? tag).map fun key => (c.kind, key) := fun c htag hnode => by
    rw [nodeLeaf?_eq, hnode, Option.bind_some, tagKey?_eq htag]
  refine ⟨fun hname => ⟨?_, ?_⟩, hsame⟩
  -- from one key to one content, which only plain elements allow
  · rintro ⟨kind, key, htagKey, hleaf⟩
    obtain ⟨c, htag, hplain⟩ := exists_tells?_of_plain hname
    obtain ⟨d, hnode, -, -, hkey⟩ := nodeLeaf?_eq_some_iff.1 hleaf
    rw [tagKey?_eq htag, Content.key?_eq_some_iff] at htagKey
    obtain rfl : c = d := Content.eq_of_key_eq (wellFormed_of_tag_tells? htag)
      (wellFormed_of_node_tells? hnode) hplain (htagKey.2.trans hkey.symm)
    exact ⟨c, htag, hnode, htagKey.1⟩
  · rintro ⟨c, htag, hnode, hfull⟩
    exact ⟨c.kind, c.key, by rw [tagKey?_eq htag, Content.key?_eq_some_iff]; exact ⟨hfull, rfl⟩,
      nodeLeaf?_eq_some_iff.2 ⟨c, hnode, hfull, rfl, rfl⟩⟩

/-- A heading with an element and a no-break space in it, and a heading of no level. -/
theorem tagKey?_eq_nodeLeaf?_iff_markedHeading :
    let tag : Html.Tag :=
      ⟨"h2", [], [.element "em" [] [.text " Good" false], .text "\u00a0day " false]⟩
    let node : Node := ⟨"heading", some "Good\n day", {}, none, none, none, none⟩
    tag.name ∈ plainElements ∧ tag.tells? = some (.heading .two ["Good", "day"])
      ∧ node.tells? = some (.heading .two ["Good", "day"])
      ∧ (∃ kind key, tagKey? tag = some key ∧ nodeLeaf? node = some (kind, key))
      ∧ nodeLeaf? node = (tagKey? tag).map fun key => (.heading, key) := by
  intro tag node
  have hname : tag.name ∈ plainElements := by decide
  have htag : tag.tells? = some (.heading .two ["Good", "day"]) := by decide
  have hnode : node.tells? = some (.heading .two ["Good", "day"]) := by decide
  have hagree := tagKey?_eq_nodeLeaf?_iff tag node
  exact ⟨hname, htag, hnode, (hagree.1 hname).2 ⟨_, htag, hnode, by decide⟩, hagree.2 _ htag hnode⟩

end Recovery

end BlockTheme
