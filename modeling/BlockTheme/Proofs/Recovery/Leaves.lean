import BlockTheme.Proofs.Text.Words
import BlockTheme.Recovery.Leaf
import Mathlib.Data.List.Induction

/-!
# The index of leaves

What `LeafIndex.ofTags` builds, and what a search in it finds. The index is sound (`Sound`): a leaf
is numbered by its place, a bucket holds exactly the leaves with its label in document order, and
the key of a leaf tells its kind. `sound_ofTags` is the fold over the elements with `sound_add` as
its step. A search gives out nothing that is in use (`not_mem_of_find?_eq_some`), and on a sound
index only leaves of the kind that was asked for (`find?_eq_some`).
-/

namespace BlockTheme.Recovery

/-! ## Keys tell kinds

The first character of a key is the one with which the keys of its kind begin, whichever element or
node the key was made of. -/

/-- The kind that the first character of a key stands for. -/
def LeafKind.ofKey? (key : String) : Option LeafKind :=
  match key.toList.head? with
  | some 'h' => some .heading
  | some 'p' => some .paragraph
  | some 'i' => some .image
  | some 'b' => some .button
  | some 'l' => some .list
  | _ => none

/-- The names for headings begin with an `h`, so that the first character of a key tells a heading.
-/
theorem head?_of_isHeadingTag {tag : String} (h : isHeadingTag tag = true) :
    tag.toList.head? = some 'h' := by
  unfold isHeadingTag at h
  split at h
  · next hlist => rw [hlist]; rfl
  · next hlist => rw [hlist]; rfl
  · exact absurd h (by simp)

theorem isHeadingTag_of_ofTag? {tag : String} (h : LeafKind.ofTag? tag = some .heading) :
    isHeadingTag tag = true := by
  unfold LeafKind.ofTag? at h
  split at h
  · assumption
  · split at h <;> simp at h

/-- **The kind of a key is that of the element it was made for.** Keys begin with the name of an
element or with a word for their kind, and the first characters of these are different for different
kinds. -/
theorem ofKey?_leafKey? {tag text extra key : String} (h : leafKey? tag text extra = some key) :
    LeafKind.ofKey? key = LeafKind.ofTag? tag := by
  unfold leafKey? at h
  cases hkind : LeafKind.ofTag? tag with
  | none => simp [hkind] at h
  | some kind =>
    simp only [hkind] at h
    -- the key of a heading begins with its tag, the others with a letter of their own
    cases kind with
    | heading =>
      have hhead := head?_of_isHeadingTag (isHeadingTag_of_ofTag? hkind)
      obtain ⟨-, hkey⟩ := Option.ite_none_left_eq_some.1 h
      simp [← Option.some.inj hkey, LeafKind.ofKey?, hhead]
    | paragraph | image | button | list =>
      obtain ⟨-, hkey⟩ := Option.ite_none_left_eq_some.1 h
      simp [← Option.some.inj hkey, LeafKind.ofKey?]

/-- The key of an element tells the kind of the element. -/
theorem ofKey?_tagKey? {tag : Html.Tag} {key : String} (h : tagKey? tag = some key) :
    LeafKind.ofKey? key = LeafKind.ofTag? tag.name := by
  unfold tagKey? at h
  split at h <;> exact ofKey?_leafKey? h

/-- What has a key is a leaf. -/
theorem exists_ofTag?_of_tagKey? {tag : Html.Tag} {key : String} (h : tagKey? tag = some key) :
    ∃ kind, LeafKind.ofTag? tag.name = some kind := by
  cases hkind : LeafKind.ofTag? tag.name with
  | none => simp [tagKey?, leafKey?, hkind] at h
  | some kind => exact ⟨kind, rfl⟩

/-- A step in the proof of `ofKey?_nodeLeaf?`, for the kinds whose key is made for the name of an
element. -/
theorem ofKey?_of_map_leafKey? {tag text extra key : String} {kind own : LeafKind}
    (htag : LeafKind.ofTag? tag = some own)
    (h : (leafKey? tag text extra).map (fun key => (own, key)) = some (kind, key)) :
    LeafKind.ofKey? key = some kind := by
  obtain ⟨made, hmade, hpair⟩ := Option.map_eq_some_iff.1 h
  obtain ⟨rfl, rfl⟩ := Prod.mk.inj hpair
  rw [ofKey?_leafKey? hmade, htag]

/-- The key that a node asks for tells the kind that it asks for. So both halves of a search, the
one by key and the one by kind, stay among leaves of one kind. -/
theorem ofKey?_nodeLeaf? {node : Node} {kind : LeafKind} {key : String}
    (h : nodeLeaf? node = some (kind, key)) : LeafKind.ofKey? key = some kind := by
  unfold nodeLeaf? at h
  split at h
  · refine ofKey?_of_map_leafKey? ?_ h
    cases node.attributes.level.getD .two <;> decide
  · exact ofKey?_of_map_leafKey? (by decide) h
  · exact ofKey?_of_map_leafKey? (by decide) h
  · exact ofKey?_of_map_leafKey? (by decide) h
  · refine ofKey?_of_map_leafKey? ?_ h
    split <;> decide
  · simp at h

/-! ## A sound index -/

/-! ### Members that are numbered by their places -/

section Places

variable {α : Type} {number : α → Nat} {members : List α}

/-- If every member is numbered by its place, the numbers are those from zero up. This holds of
leaves as of containers. -/
theorem map_eq_range_of_places
    (h : ∀ {place : Nat} {a : α}, members[place]? = some a → number a = place) :
    members.map number = List.range members.length := by
  refine List.ext_getElem? fun place => ?_
  rw [List.getElem?_map]
  cases hplace : members[place]? with
  | none =>
    have hlength := List.getElem?_eq_none_iff.1 hplace
    simp [hlength]
  | some a =>
    obtain ⟨hlength, -⟩ := List.getElem?_eq_some_iff.1 hplace
    simp [hlength, h hplace]

/-- Members that are numbered by their places have different numbers. -/
theorem nodup_map_of_places
    (h : ∀ {place : Nat} {a : α}, members[place]? = some a → number a = place) :
    (members.map number).Nodup := by
  rw [map_eq_range_of_places h]
  exact List.nodup_range

/-- The numbers rise from one member to the next. -/
theorem pairwise_lt_of_places
    (h : ∀ {place : Nat} {a : α}, members[place]? = some a → number a = place) :
    members.Pairwise fun a b => number a < number b := by
  rw [← List.pairwise_map, map_eq_range_of_places h]
  exact List.pairwise_lt_range

/-- Where numbers rise, a search passes over everything with a lower number than what it finds. -/
theorem not_of_find?_of_lt (hrise : members.Pairwise fun a b => number a < number b)
    {p : α → Bool} {found a : α} (hfind : members.find? p = some found) (ha : a ∈ members)
    (hlt : number a < number found) : ¬p a = true := by
  obtain ⟨-, before, after, hsplit, hbefore⟩ := List.find?_eq_some_iff_append.1 hfind
  rw [hsplit, List.mem_append, List.mem_cons] at ha
  rw [hsplit, List.pairwise_append, List.pairwise_cons] at hrise
  rcases ha with hin | rfl | hin
  · simpa using hbefore a hin
  · omega
  · have hgt := hrise.2.1.1 a hin
    omega

end Places

/-- An index whose numbers are places, whose buckets hold the leaves with their label in document
order, and whose keys tell kinds. -/
structure LeafIndex.Sound (index : LeafIndex) : Prop where
  id_eq : ∀ {place : Nat} {leaf : Leaf}, index.leaves[place]? = some leaf → leaf.id = place
  withKey_eq : ∀ key, index.withKey key = index.leaves.filter fun leaf => leaf.key = key
  ofKind_eq : ∀ kind, index.ofKind kind = index.leaves.filter fun leaf => leaf.kind = kind
  kind_eq : ∀ {leaf : Leaf}, leaf ∈ index.leaves → LeafKind.ofKey? leaf.key = some leaf.kind

/-- A number belongs to one leaf. -/
theorem LeafIndex.Sound.eq_of_id_eq {index : LeafIndex} (h : index.Sound) {a b : Leaf}
    (ha : a ∈ index.leaves) (hb : b ∈ index.leaves) (hid : a.id = b.id) : a = b :=
  List.inj_on_of_nodup_map (nodup_map_of_places h.id_eq) ha hb hid

/-- The bucket of a kind has all leaves of this kind and no others. -/
theorem LeafIndex.Sound.mem_ofKind {index : LeafIndex} (h : index.Sound) {kind : LeafKind}
    {leaf : Leaf} : leaf ∈ index.ofKind kind ↔ leaf ∈ index.leaves ∧ leaf.kind = kind := by
  rw [h.ofKind_eq, List.mem_filter, decide_eq_true_eq]

theorem LeafIndex.Sound.nodup_ids_ofKind {index : LeafIndex} (h : index.Sound) (kind : LeafKind) :
    ((index.ofKind kind).map Leaf.id).Nodup := by
  rw [h.ofKind_eq]
  exact (nodup_map_of_places h.id_eq).sublist (List.filter_sublist.map _)

/-- There is a bucket for every key. -/
theorem LeafIndex.Sound.mem_byKey {index : LeafIndex} (h : index.Sound) {leaf : Leaf}
    (hleaf : leaf ∈ index.leaves) : leaf.key ∈ index.byKey.map Prod.fst := by
  by_contra hno
  have hlookup : index.byKey.lookup leaf.key = none := by
    rw [List.lookup_eq_none_iff]
    rintro ⟨key, bucket⟩ hmem
    simpa using fun heq : leaf.key = key => hno (heq ▸ List.mem_map_of_mem hmem)
  have hbucket : leaf ∈ index.withKey leaf.key := by
    rw [h.withKey_eq]
    simpa using hleaf
  simp [LeafIndex.withKey, hlookup] at hbucket

/-- What is in a bucket after a leaf was put into one. A bucket that is not there counts as an empty
one, so that the first leaf of a label is no exception. -/
theorem lookup_putInBucket {α : Type} [DecidableEq α] (label name : α) (leaf : Leaf)
    (buckets : List (α × List Leaf)) :
    ((putInBucket label leaf buckets).lookup name).getD []
      = (buckets.lookup name).getD [] ++ if label = name then [leaf] else [] := by
  induction buckets with
  | nil =>
    by_cases h : label = name
    · simp [putInBucket, h]
    · have hne : (name == label) = false := by simpa using fun h' : name = label => h h'.symm
      simp [putInBucket, List.lookup_cons, h, hne]
  | cons bucket rest ih =>
    obtain ⟨first, held⟩ := bucket
    rw [putInBucket]
    by_cases hfirst : first = label
    -- the bucket is there: it gets the leaf, and the others stay as they are
    · subst hfirst
      rw [if_pos rfl, List.lookup_cons, List.lookup_cons]
      by_cases hname : name = first
      · subst hname
        simp
      · have hne : (name == first) = false := by simpa using hname
        rw [hne, if_neg fun h => hname h.symm]
        simp
    -- another bucket stands in front and stays; the rest is the induction hypothesis
    · rw [if_neg hfirst, List.lookup_cons, List.lookup_cons]
      by_cases hname : name = first
      · subst hname
        have hother : ¬label = name := fun h => hfirst h.symm
        simp [hother]
      · have hne : (name == first) = false := by simpa using hname
        rw [hne]
        exact ih

namespace LeafIndex

/-- The index before any element has no leaves and no buckets. -/
theorem sound_empty : Sound {} where
  id_eq := by simp
  withKey_eq _ := rfl
  ofKind_eq _ := rfl
  kind_eq := by simp

/-- Adding a leaf whose key tells its kind keeps an index sound. The leaf gets the number of its
place, and it comes to the end of the list and of two buckets. -/
theorem sound_add {index : LeafIndex} (h : index.Sound) {kind : LeafKind} {key : String}
    (classes : List String) (hkind : LeafKind.ofKey? key = some kind) :
    (index.add kind key classes).Sound where
  id_eq := by
    intro place leaf hleaf
    rw [add, List.getElem?_append] at hleaf
    split at hleaf
    · exact h.id_eq hleaf
    -- the new leaf stands at the end, and its number is how many there were
    · next hplace =>
      obtain ⟨hlast, rfl⟩ := List.getElem?_eq_some_iff.1 hleaf
      simp only [List.length_singleton] at hlast
      simp only [List.getElem_singleton]
      omega
  withKey_eq name := by
    have hold := h.withKey_eq name
    simp only [withKey] at hold
    simp only [withKey, add, lookup_putInBucket, hold, List.filter_append]
    by_cases hname : key = name <;> simp [hname]
  ofKind_eq name := by
    have hold := h.ofKind_eq name
    simp only [ofKind] at hold
    simp only [ofKind, add, lookup_putInBucket, hold, List.filter_append]
    by_cases hname : kind = name <;> simp [hname]
  kind_eq := by
    intro leaf hleaf
    rw [add, List.mem_append, List.mem_singleton] at hleaf
    rcases hleaf with hold | rfl
    · exact h.kind_eq hold
    · exact hkind

/-- Adding an element keeps an index sound: it adds a leaf with a key for its kind, or nothing. -/
theorem sound_addTag {index : LeafIndex} (h : index.Sound) (defined : List String)
    (tag : Html.Tag) : (index.addTag defined tag).Sound := by
  unfold addTag
  split
  · next kind key hkind hkey =>
    exact sound_add h _ ((ofKey?_tagKey? hkey).trans hkind)
  · exact h

/-- **The index of a markup is sound.** By induction on the elements, with `sound_addTag` as its
step. -/
theorem sound_ofTags (tags : List Html.Tag) (defined : List String) :
    (ofTags tags defined).Sound := by
  have hfold : ∀ index : LeafIndex, index.Sound → (tags.foldl (addTag defined) index).Sound := by
    induction tags with
    | nil => exact fun _ h => h
    | cons tag rest ih => exact fun index h => ih _ (sound_addTag h defined tag)
  exact hfold {} sound_empty

/-! ## The classes of leaves -/

/-- A name stands in the class attribute of an element and is that of a class of the stylesheet. -/
def HasClass (defined : List String) (tag : Html.Tag) (name : String) : Prop :=
  name ∈ defined ∧ ∃ value, tag.attribute? "class" = some value ∧ name ∈ Text.wordsOf value

/-- The classes of a leaf are those of its element that the stylesheet has rules for. -/
theorem mem_classesOf_iff {defined : List String} {tag : Html.Tag} {name : String} :
    name ∈ classesOf defined tag ↔ HasClass defined tag name := by
  rw [classesOf, qualifying, Text.mem_distinct, List.mem_filter, List.mem_flatMap]
  simp only [Option.mem_toList, List.contains_iff_mem, and_comm (b := name ∈ defined)]
  rfl

/-- No class of a leaf is the empty name: they are words of the class attribute. -/
theorem ne_empty_of_mem_classesOf {defined : List String} {tag : Html.Tag} {name : String}
    (h : name ∈ classesOf defined tag) : name ≠ "" := by
  obtain ⟨-, _, -, hword⟩ := mem_classesOf_iff.1 h
  exact Text.ne_empty_of_mem_wordsOf hword

/-- A keyed leaf among the elements, with its kind and its key. -/
def keyedTag? (tag : Html.Tag) : Option (LeafKind × String × Html.Tag) :=
  match LeafKind.ofTag? tag.name, tagKey? tag with
  | some kind, some key => some (kind, key, tag)
  | _, _ => none

/-- The leaf that a keyed element makes at its place. -/
def leafOf (defined : List String) : (LeafKind × String × Html.Tag) × Nat → Leaf
  | ((kind, key, tag), id) => ⟨id, kind, key, classesOf defined tag⟩

/-- An element adds the leaf that it makes at the next place, if it is keyed. -/
theorem leaves_addTag (index : LeafIndex) (defined : List String) (tag : Html.Tag) :
    (index.addTag defined tag).leaves
      = index.leaves ++ ((keyedTag? tag).toList.zipIdx index.leaves.length).map (leafOf defined) := by
  rw [addTag, keyedTag?]
  cases LeafKind.ofTag? tag.name with
  | none => exact (List.append_nil _).symm
  | some kind =>
    cases tagKey? tag with
    | none => exact (List.append_nil _).symm
    | some key => rfl

/-- **The leaves of a markup are its keyed elements in document order.** The stylesheet decides on
nothing but their classes. -/
theorem leaves_ofTags (tags : List Html.Tag) (defined : List String) :
    (ofTags tags defined).leaves = (tags.filterMap keyedTag?).zipIdx.map (leafOf defined) := by
  induction tags using List.reverseRecOn with
  | nil => rfl
  | append_singleton tags tag ih =>
    have hadd : ofTags (tags ++ [tag]) defined = (ofTags tags defined).addTag defined tag := by
      rw [ofTags, List.foldl_concat]
      rfl
    have hlast : [tag].filterMap keyedTag? = (keyedTag? tag).toList := by
      rw [List.filterMap_cons]
      cases keyedTag? tag <;> rfl
    rw [hadd, leaves_addTag, ih, List.length_map, List.length_zipIdx, List.filterMap_append, hlast,
      List.zipIdx_append, List.map_append, Nat.zero_add]

theorem exists_leaf_of_tagKey? {tags : List Html.Tag} {tag : Html.Tag} {key : String}
    (htag : tag ∈ tags) (hkey : tagKey? tag = some key) (defined : List String) :
    ∃ leaf ∈ (ofTags tags defined).leaves, leaf.key = key := by
  obtain ⟨kind, hkind⟩ := exists_ofTag?_of_tagKey? hkey
  have hkeyed : (kind, key, tag) ∈ tags.filterMap keyedTag? :=
    List.mem_filterMap.2 ⟨tag, htag, by rw [keyedTag?, hkind, hkey]⟩
  obtain ⟨id, hid⟩ := List.mem_iff_getElem?.1 hkeyed
  have hplaced : ((kind, key, tag), id) ∈ (tags.filterMap keyedTag?).zipIdx :=
    List.mem_zipIdx_iff_getElem?.2 hid
  exact ⟨leafOf defined ((kind, key, tag), id),
    leaves_ofTags tags defined ▸ List.mem_map_of_mem hplaced, rfl⟩

/-- Every leaf of an index comes from an element, whose classes it has. By induction on the tags,
from which the index is built. -/
theorem exists_tag_of_mem_ofTags {tags : List Html.Tag} {defined : List String} {leaf : Leaf}
    (h : leaf ∈ (ofTags tags defined).leaves) :
    ∃ tag ∈ tags, leaf.classes = classesOf defined tag := by
  rw [leaves_ofTags] at h
  obtain ⟨⟨⟨kind, key, tag⟩, id⟩, hmem, rfl⟩ := List.mem_map.1 h
  obtain ⟨source, hsource, hkeyed⟩ := List.mem_filterMap.1 (List.fst_mem_of_mem_zipIdx hmem)
  rw [keyedTag?] at hkeyed
  split at hkeyed
  · obtain ⟨-, hrest⟩ := Prod.mk.inj (Option.some.inj hkeyed)
    obtain ⟨-, rfl⟩ := Prod.mk.inj hrest
    exact ⟨source, hsource, rfl⟩
  · exact absurd hkeyed (by simp)

/-! ## Searching -/

/-- A search gives out nothing that is in use. -/
theorem not_mem_of_find?_eq_some {index : LeafIndex} {used : List Nat} {key : String}
    {kind : Option LeafKind} {leaf : Leaf} (h : index.find? used key kind = some leaf) :
    leaf.id ∉ used := by
  unfold find? at h
  rcases Option.or_eq_some_iff.1 h with hexact | ⟨-, hfallback⟩
  · simpa using List.find?_some hexact
  · simpa using List.find?_some hfallback

/-- On a sound index a search looks through all leaves twice: for an unused one with the key, then
for an unused one of the kind. -/
theorem find?_eq {index : LeafIndex} (h : index.Sound) (used : List Nat) (key : String)
    (kind : LeafKind) :
    index.find? used key (some kind)
      = (index.leaves.find? fun leaf => leaf.key = key ∧ leaf.id ∉ used).or
          (index.leaves.find? fun leaf => leaf.kind = kind ∧ leaf.id ∉ used) := by
  unfold find?
  rw [h.withKey_eq]
  simp only [Option.toList_some, List.flatMap_cons, List.flatMap_nil, List.append_nil]
  rw [h.ofKind_eq, List.find?_filter, List.find?_filter]
  congr 2
  · funext leaf
    simp
  · funext leaf
    simp

/-- The leaves of a kind that are not in use. -/
def free (index : LeafIndex) (used : List Nat) (kind : LeafKind) : List Leaf :=
  (index.ofKind kind).filter fun leaf => leaf.id ∉ used

/-- A free leaf is one of the index, of the kind, that is not in use. -/
theorem mem_free {index : LeafIndex} (h : index.Sound) {used : List Nat} {kind : LeafKind}
    {leaf : Leaf} :
    leaf ∈ index.free used kind ↔ leaf ∈ index.leaves ∧ leaf.kind = kind ∧ leaf.id ∉ used := by
  rw [free, List.mem_filter, h.mem_ofKind, and_assoc]
  simp

/-- Free leaves stand in document order, so that the first one is the one with the lowest number. -/
theorem pairwise_lt_free {index : LeafIndex} (h : index.Sound) (used : List Nat)
    (kind : LeafKind) : (index.free used kind).Pairwise fun a b => a.id < b.id := by
  rw [free, h.ofKind_eq]
  exact ((pairwise_lt_of_places h.id_eq).filter _).filter _

/-- **A search for a key stays among the free leaves of its kind**: it finds the first one with the
key, or else the first one. -/
theorem find?_eq_free {index : LeafIndex} (h : index.Sound) (used : List Nat) {key : String}
    {kind : LeafKind} (hkey : LeafKind.ofKey? key = some kind) :
    index.find? used key (some kind)
      = ((index.free used kind).find? fun leaf => leaf.key = key).or
          (index.free used kind).head? := by
  -- a key tells one kind only, so its bucket lies in that of the kind
  have hbucket : index.withKey key = (index.ofKind kind).filter fun leaf => leaf.key = key := by
    rw [h.withKey_eq, h.ofKind_eq, List.filter_filter]
    refine List.filter_congr fun leaf hleaf => ?_
    have htold := h.kind_eq hleaf
    by_cases hsame : leaf.key = key
    · rw [hsame, hkey] at htold
      simp [hsame, Option.some.inj htold]
    · simp [hsame]
  unfold find? free
  rw [hbucket, ← List.head?_filter, ← List.head?_filter, ← List.head?_filter, List.filter_comm]
  simp

/-- Every leaf with the key of the one that a search finds, and with a lower number, is in use. If
the search went by the key, it took the first leaf of the bucket that is not in use; if it went by
the kind, no leaf of the key was left, and the bucket of the kind has the same order. -/
theorem mem_of_find?_of_lt {index : LeafIndex} (h : index.Sound) {used : List Nat} {key : String}
    {kind : LeafKind} (hkey : LeafKind.ofKey? key = some kind) {found leaf : Leaf}
    (hfind : index.find? used key (some kind) = some found) (hleaf : leaf ∈ index.leaves)
    (hsame : leaf.key = found.key) (hlt : leaf.id < found.id) : leaf.id ∈ used := by
  by_contra hunused
  have hrise := pairwise_lt_free h used kind
  rw [find?_eq_free h used hkey, Option.or_eq_some_iff] at hfind
  have hfound : found ∈ index.free used kind := by
    rcases hfind with hexact | ⟨-, hfallback⟩
    · exact List.mem_of_find?_eq_some hexact
    · exact List.mem_of_head? hfallback
  -- with the same key the leaf is of the same kind, and free like the one that is found
  have hfree : leaf ∈ index.free used kind := by
    obtain ⟨hin, hkind, -⟩ := (mem_free h).1 hfound
    have htold := h.kind_eq hleaf
    rw [hsame, h.kind_eq hin, hkind] at htold
    exact (mem_free h).2 ⟨hleaf, (Option.some.inj htold).symm, hunused⟩
  rcases hfind with hexact | ⟨-, hfallback⟩
  -- it was found by its key: a free leaf before it with that key would have been found instead
  · have hfoundKey := List.find?_some hexact
    have hpassed := not_of_find?_of_lt hrise hexact hfree hlt
    simp only [decide_eq_true_eq] at hfoundKey hpassed
    exact hpassed (hsame.trans hfoundKey)
  -- it was the first free leaf of the kind: none stands before it
  · obtain ⟨rest, hrest⟩ := List.head?_eq_some_iff.1 hfallback
    rw [hrest, List.pairwise_cons] at hrise
    rw [hrest, List.mem_cons] at hfree
    rcases hfree with rfl | hlater
    · omega
    · have hgt := hrise.1 leaf hlater
      omega

/-- **What a search for a key finds is a leaf of the index, of the kind that the key tells.** Both
steps of the search stay among leaves of this kind. -/
theorem find?_eq_some {index : LeafIndex} (h : index.Sound) {used : List Nat} {key : String}
    {kind : LeafKind} (hkey : LeafKind.ofKey? key = some kind) {leaf : Leaf}
    (hfind : index.find? used key (some kind) = some leaf) :
    leaf ∈ index.leaves ∧ leaf.kind = kind := by
  rw [find?_eq h, Option.or_eq_some_iff] at hfind
  rcases hfind with hexact | ⟨-, hfallback⟩
  · -- the leaf has the key that was asked for, and a key tells one kind only
    have hmem := List.mem_of_find?_eq_some hexact
    have hprop := List.find?_some hexact
    simp only [decide_eq_true_eq] at hprop
    have htold := h.kind_eq hmem
    rw [hprop.1, hkey] at htold
    exact ⟨hmem, (Option.some.inj htold).symm⟩
  · have hprop := List.find?_some hfallback
    simp only [decide_eq_true_eq] at hprop
    exact ⟨List.mem_of_find?_eq_some hfallback, hprop.1⟩

end LeafIndex

end BlockTheme.Recovery
