import BlockTheme.Proofs.Recovery.Leaves

/-!
# The buckets of an index

An index holds its leaves three times: as a list in document order, in buckets by their keys and in
buckets by their kinds. The buckets are filled one leaf at a time, and at every time they are what
the list says (`bucketsBy`): `putInBucket_bucketsBy` is the step, `filed_ofTags` the run over the
elements. So both tables are views of the list (`Shelves`), the bucket of a key lies in that of one
kind, and the list is that of the keyed elements of the markup (`LeafIndex.views_of_leaves`).
-/

namespace BlockTheme.Recovery

/-! ## Tables of leaves -/

section Buckets

variable {α : Type} [DecidableEq α] {leaf : Leaf} {names : List α}

/-- The leaves of a list by a label: every label where it first occurs, with the leaves that have
it. -/
def bucketsBy (label : Leaf → α) (leaves : List Leaf) : List (α × List Leaf) :=
  (Text.distinct (leaves.map label)).map fun name =>
    (name, leaves.filter fun leaf => label leaf = name)

/-- A leaf with a label that is not there yet opens a bucket at the end. -/
theorem putInBucket_of_not_mem {held : α → List Leaf} {name : α} (h : name ∉ names) :
    putInBucket name leaf (names.map fun other => (other, held other))
      = (names.map fun other => (other, held other)) ++ [(name, [leaf])] := by
  induction names with
  | nil => rfl
  | cons first rest ih =>
    rw [List.mem_cons, not_or] at h
    obtain ⟨hfirst, hrest⟩ := h
    rw [List.map_cons, putInBucket, if_neg (Ne.symm hfirst), ih hrest, List.cons_append]

/-- A leaf with a label that is there comes to the end of its bucket, and no other bucket changes.
The labels are different, so there is only one such bucket. -/
theorem putInBucket_of_mem {held : α → List Leaf} {name : α} (hnodup : names.Nodup)
    (h : name ∈ names) :
    putInBucket name leaf (names.map fun other => (other, held other))
      = names.map fun other => (other, held other ++ if name = other then [leaf] else []) := by
  induction names with
  | nil => exact absurd h List.not_mem_nil
  | cons first rest ih =>
    obtain ⟨hfirst, hrest⟩ := List.nodup_cons.1 hnodup
    rw [List.map_cons, List.map_cons, putInBucket]
    by_cases hname : first = name
    · subst hname
      -- no later bucket has the label once more
      have hsame : (rest.map fun other => (other, held other))
          = rest.map fun other => (other, held other ++ if first = other then [leaf] else []) := by
        apply List.map_congr_left
        intro other hother
        have hne : first ≠ other := by
          rintro rfl
          exact hfirst hother
        rw [if_neg hne, List.append_nil]
      rw [if_pos rfl, if_pos rfl, hsame]
    · have hin : name ∈ rest := (List.mem_cons.1 h).resolve_left (Ne.symm hname)
      rw [if_neg hname, if_neg (Ne.symm hname), List.append_nil, ih hrest hin]

/-- A leaf at the end is in a bucket if it has its label. -/
theorem filter_concat (label : Leaf → α) (leaves : List Leaf) (leaf : Leaf) (name : α) :
    ((leaves ++ [leaf]).filter fun other => label other = name)
      = (leaves.filter fun other => label other = name)
        ++ if label leaf = name then [leaf] else [] := by
  rw [List.filter_append]
  by_cases h : label leaf = name <;> simp [h]

/-- **Putting a leaf into its bucket is adding it to the list.** The step of the induction that
shows an index to be filed: a bucket that is there gets longer, and for a new label there is a new
one. -/
theorem putInBucket_bucketsBy (label : Leaf → α) (leaves : List Leaf) (leaf : Leaf) :
    putInBucket (label leaf) leaf (bucketsBy label leaves) = bucketsBy label (leaves ++ [leaf]) := by
  unfold bucketsBy
  rw [List.map_append, List.map_singleton, Text.distinct_concat]
  simp only [filter_concat]
  -- the label has a bucket already, or a new one is added behind
  by_cases h : label leaf ∈ leaves.map label
  · rw [if_pos h, putInBucket_of_mem (Text.nodup_distinct _) (Text.mem_distinct.2 h)]
  · have hnew : label leaf ∉ Text.distinct (leaves.map label) := fun hin => h (Text.mem_distinct.1 hin)
    rw [if_neg h, putInBucket_of_not_mem hnew, List.map_append, List.map_singleton, if_pos rfl]
    congr 1
    · -- the old buckets stay as they are
      apply List.map_congr_left
      intro name hname
      have hne : label leaf ≠ name := by
        rintro rfl
        exact hnew hname
      rw [if_neg hne, List.append_nil]
    · have hempty : (leaves.filter fun other => label other = label leaf) = [] := by
        apply List.filter_eq_nil_iff.2
        intro other hother hsame
        exact h (List.mem_map.2 ⟨other, hother, by simpa using hsame⟩)
      rw [hempty, List.nil_append]

/-- A table is a view of a list of leaves: no label stands in it twice, in each bucket are the leaves
with its label in their order, and there is a bucket for the labels that occur and no other. -/
structure Shelves (label : Leaf → α) (leaves : List Leaf) (table : List (α × List Leaf)) : Prop where
  nodup_names : (table.map Prod.fst).Nodup
  bucket_eq : ∀ entry ∈ table, entry.2 = leaves.filter fun leaf => label leaf = entry.1
  bucket_ne_nil : ∀ entry ∈ table, entry.2 ≠ []
  exists_bucket : ∀ leaf ∈ leaves, ∃ entry ∈ table, entry.1 = label leaf

/-- Buckets by labels hold all leaves, each in the one of its label, and none of them is empty. The
labels are those of the leaves without repetition, so each has the leaf that it was taken from. -/
theorem shelves_bucketsBy (label : Leaf → α) (leaves : List Leaf) :
    Shelves label leaves (bucketsBy label leaves) where
  nodup_names := by
    -- the names are the labels without repetition
    have hnames : (bucketsBy label leaves).map Prod.fst = Text.distinct (leaves.map label) := by
      rw [bucketsBy, List.map_map]
      exact List.map_id _
    rw [hnames]
    exact Text.nodup_distinct _
  bucket_eq := by
    intro entry hentry
    obtain ⟨name, -, rfl⟩ := List.mem_map.1 hentry
    rfl
  bucket_ne_nil := by
    intro entry hentry
    obtain ⟨name, hname, rfl⟩ := List.mem_map.1 hentry
    obtain ⟨leaf, hleaf, hlabel⟩ := List.mem_map.1 (Text.mem_distinct.1 hname)
    apply List.ne_nil_of_mem (a := leaf)
    rw [List.mem_filter, decide_eq_true_eq]
    exact ⟨hleaf, hlabel⟩
  exists_bucket := by
    intro leaf hleaf
    have hname : label leaf ∈ Text.distinct (leaves.map label) :=
      Text.mem_distinct.2 (List.mem_map_of_mem hleaf)
    exact ⟨_, List.mem_map_of_mem hname, rfl⟩

end Buckets

namespace LeafIndex

variable {index : LeafIndex} {defined : List String} {tag : Html.Tag}

/-! ## Indexes -/

/-- The two tables of an index are filed by key and by kind. -/
structure Filed (index : LeafIndex) : Prop where
  byKey_eq : index.byKey = bucketsBy Leaf.key index.leaves
  byKind_eq : index.byKind = bucketsBy Leaf.kind index.leaves

/-- Adding a leaf puts it into both of its buckets. -/
theorem Filed.add (h : index.Filed) (kind : LeafKind) (key : String) (classes : List String) :
    (index.add kind key classes).Filed where
  byKey_eq := by
    show putInBucket key _ index.byKey = _
    rw [h.byKey_eq]
    exact putInBucket_bucketsBy Leaf.key index.leaves ⟨index.leaves.length, kind, key, classes⟩
  byKind_eq := by
    show putInBucket kind _ index.byKind = _
    rw [h.byKind_eq]
    exact putInBucket_bucketsBy Leaf.kind index.leaves ⟨index.leaves.length, kind, key, classes⟩

theorem Filed.addTag (h : index.Filed) (defined : List String) (tag : Html.Tag) :
    (index.addTag defined tag).Filed := by
  unfold LeafIndex.addTag
  split
  · exact h.add _ _ _
  · exact h

/-- The index of a markup is filed, by induction on the elements: its buckets are determined by its
leaves. -/
theorem filed_ofTags (tags : List Html.Tag) (defined : List String) : (ofTags tags defined).Filed := by
  have hfold : ∀ index : LeafIndex, index.Filed → (tags.foldl (addTag defined) index).Filed := by
    induction tags with
    | nil => exact fun _ h => h
    | cons tag rest ih => exact fun index h => ih _ (h.addTag defined tag)
  exact hfold {} ⟨rfl, rfl⟩

/-- **The bucket of a key lies in the bucket of one kind**, and no other kind has a leaf of it. That
is so because the key tells the kind. -/
theorem exists_kind_of_key (hsound : index.Sound) (hkeys : Shelves Leaf.key index.leaves index.byKey)
    (hkinds : Shelves Leaf.kind index.leaves index.byKind) {entry : String × List Leaf}
    (hentry : entry ∈ index.byKey) :
    ∃ home ∈ index.byKind, entry.2.Sublist home.2
      ∧ ∀ other ∈ index.byKind, other ≠ home → entry.2.Disjoint other.2 := by
  have hlabel : ∀ leaf ∈ entry.2, leaf ∈ index.leaves ∧ leaf.key = entry.1 := by
    intro leaf hleaf
    rw [hkeys.bucket_eq entry hentry, List.mem_filter, decide_eq_true_eq] at hleaf
    exact hleaf
  obtain ⟨leaf, hleaf⟩ := List.exists_mem_of_ne_nil _ (hkeys.bucket_ne_nil entry hentry)
  obtain ⟨hin, hkey⟩ := hlabel leaf hleaf
  -- the key tells the kind of all leaves that have it
  have hkind : ∀ other ∈ entry.2, other.kind = leaf.kind := by
    intro other hother
    obtain ⟨hin', hkey'⟩ := hlabel other hother
    have htold := hsound.kind_eq hin'
    rw [hkey', ← hkey, hsound.kind_eq hin] at htold
    exact (Option.some.inj htold).symm
  obtain ⟨home, hhome, hname⟩ := hkinds.exists_bucket leaf hin
  refine ⟨home, hhome, ?_, ?_⟩
  · have hall : entry.2 = entry.2.filter fun other => other.kind = home.1 := by
      symm
      apply List.filter_eq_self.2
      intro other hother
      rw [decide_eq_true_eq, hkind other hother, hname]
    rw [hall, hkinds.bucket_eq home hhome, hkeys.bucket_eq entry hentry]
    exact List.filter_sublist.filter _
  · intro other hother hne shared hshared hthere
    apply hne
    rw [hkinds.bucket_eq other hother, List.mem_filter, decide_eq_true_eq] at hthere
    have hsame : other.1 = home.1 := by rw [← hthere.2, hkind shared hshared, hname]
    apply Prod.ext hsame
    rw [hkinds.bucket_eq other hother, hkinds.bucket_eq home hhome, hsame]

/-! ## Leaves and their elements -/

/-- The class names in the attribute of an element, with repeats. -/
def classTokens (tag : Html.Tag) : List String :=
  (tag.attribute? "class").toList.flatMap Text.wordsOf

/-- The classes of a leaf are words of the attribute, in their order. -/
theorem classesOf_sublist (defined : List String) (tag : Html.Tag) :
    (classesOf defined tag).Sublist (classTokens tag) :=
  (Text.distinct_sublist _).trans List.filter_sublist

/-- A leaf has the kind and the key of an element, and of its class names those that are defined, in
their order and each once. -/
structure Reflects (defined : List String) (tag : Html.Tag) (leaf : Leaf) : Prop where
  kind_eq : LeafKind.ofTag? tag.name = some leaf.kind
  key_eq : tagKey? tag = some leaf.key
  nodup_classes : leaf.classes.Nodup
  classes_sublist : leaf.classes.Sublist (classTokens tag)
  mem_classes_iff : ∀ name, name ∈ leaf.classes ↔ name ∈ defined ∧ name ∈ classTokens tag

/-- The leaf that is made of an element has its kind, its key and its classes, of which the defined
ones are kept. -/
theorem reflects_leafOf {kind : LeafKind} {key : String} (hkind : LeafKind.ofTag? tag.name = some kind)
    (hkey : tagKey? tag = some key) (defined : List String) (id : Nat) :
    Reflects defined tag (leafOf defined ((kind, key, tag), id)) where
  kind_eq := hkind
  key_eq := hkey
  nodup_classes := Text.nodup_distinct _
  classes_sublist := classesOf_sublist defined tag
  mem_classes_iff := by
    intro name
    show name ∈ classesOf defined tag ↔ _
    rw [classesOf, qualifying, Text.mem_distinct, List.mem_filter, List.contains_iff_mem, and_comm]
    rfl

/-- The leaves that keyed elements make are theirs, from whatever number on. Elements without a key
make no leaf and do not count. -/
theorem forall₂_reflects (defined : List String) (tags : List Html.Tag) (start : Nat) :
    List.Forall₂ (Reflects defined) (tags.filter fun tag => (tagKey? tag).isSome)
      (((tags.filterMap keyedTag?).zipIdx start).map (leafOf defined)) := by
  -- on the tags, with the number that the next leaf gets
  induction tags generalizing start with
  | nil => exact .nil
  | cons tag rest ih =>
    cases hkey : tagKey? tag with
    | none =>
      have hkeyed : keyedTag? tag = none := by
        rw [keyedTag?, hkey]
        cases LeafKind.ofTag? tag.name <;> rfl
      rw [List.filter_cons_of_neg (by simp [hkey]), List.filterMap_cons_none hkeyed]
      exact ih start
    | some key =>
      obtain ⟨kind, hkind⟩ := exists_ofTag?_of_tagKey? hkey
      have hkeyed : keyedTag? tag = some (kind, key, tag) := by rw [keyedTag?, hkey, hkind]
      rw [List.filter_cons_of_pos (by simp [hkey]), List.filterMap_cons_some hkeyed,
        List.zipIdx_cons, List.map_cons]
      exact .cons (reflects_leafOf hkind hkey defined start) (ih (start + 1))

/-- **The index of a markup is a list of leaves and two views of it.** The leaves are numbered by
their places. By key and by kind they stand in buckets, none of which is empty, and the bucket of a
key lies in that of one kind and is disjoint from all others. The list goes through the keyed
elements of the markup, whose kinds, keys and defined class names its leaves have. -/
theorem views_of_leaves (trees : List Html) (defined : List String) :
    let tags := Html.tagsOf trees
    let index := ofTags tags defined
    index.leaves.map Leaf.id = List.range index.leaves.length
      ∧ Shelves Leaf.key index.leaves index.byKey
      ∧ Shelves Leaf.kind index.leaves index.byKind
      ∧ (∀ entry ∈ index.byKey, ∃ home ∈ index.byKind, entry.2.Sublist home.2
        ∧ ∀ other ∈ index.byKind, other ≠ home → entry.2.Disjoint other.2)
      ∧ List.Forall₂ (Reflects defined) (tags.filter fun tag => (tagKey? tag).isSome)
        index.leaves := by
  intro tags index
  have hsound : index.Sound := sound_ofTags tags defined
  have hfiled : index.Filed := filed_ofTags tags defined
  -- both views are the leaves sorted into buckets, by the key and by the kind
  have hkeys : Shelves Leaf.key index.leaves index.byKey := by
    rw [hfiled.byKey_eq]
    exact shelves_bucketsBy Leaf.key index.leaves
  have hkinds : Shelves Leaf.kind index.leaves index.byKind := by
    rw [hfiled.byKind_eq]
    exact shelves_bucketsBy Leaf.kind index.leaves
  refine ⟨map_eq_range_of_places hsound.id_eq, hkeys, hkinds, ?_, ?_⟩
  · intro entry hentry
    exact exists_kind_of_key hsound hkeys hkinds hentry
  · show List.Forall₂ _ _ (ofTags tags defined).leaves
    rw [leaves_ofTags]
    exact forall₂_reflects defined tags 0

end LeafIndex

end BlockTheme.Recovery
