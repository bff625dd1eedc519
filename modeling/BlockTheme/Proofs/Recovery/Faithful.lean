import BlockTheme.Proofs.Recovery.SingleUse

/-!
# Faithful recovery

When a markup has what a document asks for, the greedy search loses nothing. If the keys of the
sections and groups are those of the containers, in the same order, then every one of them gets its
own container (`assign_of_forall₂`), however the key sets nest or repeat: what came before is in
use, and of the rest none shares more keys or has fewer. If every key has as many leaves as it has
nodes, then every node gets the leaf that stands at the same place among those with its key
(`assign_of_enough`), in whatever order the keys come: the leaves in use are a beginning of every
bucket (`Consumed`), and a step lengthens one of these by one.
-/

namespace BlockTheme.Recovery

variable {stock : Stock} {thresholds : Thresholds}

/-! ## A page with nested groups

The section and the first group have the same keys, and the second group has one of these. The
leaves of the first group stand in the markup in the other order. -/

/-- A paragraph. -/
def paragraphNode (content : String) : Node :=
  ⟨"paragraph", some content, {}, none, none, none, none⟩

/-- A group. -/
def groupNode (children : List Node) : Node := ⟨"group", none, {}, some children, none, none, none⟩

/-- A section with a heading and a paragraph in a group, the paragraph again in a group of its own,
and the heading again without a group. -/
def nestedGroups : Document :=
  { twoHeadings with
    body := twoHeadings.body.map fun s =>
      { s with
        children := [groupNode [headingNode "Hi" none, paragraphNode "Ho"],
          groupNode [paragraphNode "Ho"], headingNode "Hi" none] } }

/-- Markup with three wrappers, of which the first holds the others. -/
def nestedWrappers : String :=
  "<div class=_><div class='_ a'><p class=a>Ho</p><h1 class=_>Hi</h1></div>"
    ++ "<div class=_><p class=_>Ho</p></div><h1 class=a>Hi</h1></div>"

/-- By default the targets of the page have to share one key. -/
theorem required_nestedGroups : ∀ target ∈ nestedGroups.walk,
    ({} : Thresholds).required target.keys.toFinset.card = .ok 1 := by
  intro target htarget
  have hcards : ∀ n ∈ nestedGroups.walk.map fun target => target.keys.toFinset.card, n ≤ 3 := by
    decide +kernel
  exact Thresholds.required_default_of_le (hcards _ (List.mem_map_of_mem htarget))

/-! ## Containers -/

/-- Whether a target asks for a container: a section or a group with keys below it. -/
def Target.Seeks (target : Target) : Prop := target.IsHolder ∧ target.keys ≠ []

instance (target : Target) : Decidable target.Seeks := inferInstanceAs (Decidable (_ ∧ _))

/-- What a run grants to the targets of a walk that ask for a container. -/
def soughtGrants (walk : List Target) (grants : List Grant) : List Grant :=
  ((walk.zip grants).filter fun pair => pair.1.Seeks).map Prod.snd

/-- Whether a target and a container have the same keys. -/
def SameKeys (target : Target) (c : Container) : Prop := target.keys.toFinset = c.keys.toFinset

theorem soughtGrants_cons_of_seeks {target : Target} (h : target.Seeks) (rest : List Target)
    (grant : Grant) (more : List Grant) :
    soughtGrants (target :: rest) (grant :: more) = grant :: soughtGrants rest more := by
  simp [soughtGrants, h]

theorem soughtGrants_cons_of_not_seeks {target : Target} (h : ¬target.Seeks) (rest : List Target)
    (grant : Grant) (more : List Grant) :
    soughtGrants (target :: rest) (grant :: more) = soughtGrants rest more := by
  simp [soughtGrants, h]

/-- A container with the keys that are asked for is beaten by no other one. Nothing shares more keys
than there are, and what shares all of them is no smaller. -/
theorem not_isBetter_of_toFinset_eq {keys : List String} {c other : Container}
    (hkeys : keys.toFinset = c.keys.toFinset) (hc : c.WellFormed) :
    ¬Container.isBetter keys other c = true := by
  have hown : c.overlap keys = c.keys.toFinset.card := by
    rw [Container.overlap_eq_card, hkeys, Finset.inter_self]
  have hsize : c.keys.toFinset.card = c.keys.length := List.toFinset_card_of_nodup hc.nodup_keys
  have hle : other.overlap keys ≤ c.overlap keys := by
    rw [hown, Container.overlap_eq_card, hkeys]
    exact Finset.card_le_card Finset.inter_subset_left
  have hlength := Container.overlap_le_length keys other
  rw [Container.isBetter_iff]
  omega

/-- **A search for the keys of the first container that is left finds it.** No container shares more
keys with the target than all of them, and the ones before it are in use. -/
theorem find?_of_sameKeys {used : List Nat} {keys : List String} {before after : List Container}
    {c : Container} (hkeys : keys.toFinset = c.keys.toFinset) (hc : c.WellFormed)
    (hused : ∀ other ∈ before, other.id ∈ used) (hfree : c.id ∉ used)
    {required : Nat} (hrequired : thresholds.required keys.toFinset.card = .ok required)
    (hle : required ≤ keys.toFinset.card) :
    Container.find? (before ++ c :: after) used thresholds keys = .ok (some c) := by
  have hne : keys ≠ [] := by
    rintro rfl
    exact hc.keys_ne_nil (List.toFinset_eq_empty_iff _ |>.1 hkeys.symm)
  have hown : c.overlap keys = keys.toFinset.card := by
    rw [Container.overlap_eq_card, ← hkeys, Finset.inter_self]
  -- everything before is in use, so the container itself is the first candidate
  have hbefore : Container.candidates before used required keys = [] := by
    refine List.eq_nil_iff_forall_not_mem.2 fun other hother => ?_
    obtain ⟨hin, hunused, -⟩ := Container.mem_candidates.1 hother
    exact hunused (hused other hin)
  have hhead : Container.candidates (before ++ c :: after) used required keys
      = c :: Container.candidates after used required keys := by
    unfold Container.candidates at hbefore ⊢
    rw [List.filter_append, hbefore, List.filter_cons_of_pos (by simp [hfree, hown, hle])]
    rfl
  refine (Container.find?_eq_ok hne).2 ⟨required, ?_, ?_⟩
  · rw [Container.length_distinct_eq_card, hrequired]
  · rw [hhead, Container.best?_cons_of_forall fun other _ => not_isBetter_of_toFinset_eq hkeys hc]

/-- The containers that are left while some of a stock is in use: all those from a place on. -/
structure Remaining (stock : Stock) (usage : Usage) (left : List Container) : Prop where
  used : ∃ before, stock.containers = before ++ left ∧ ∀ c ∈ before, c.id ∈ usage.containers
  free : ∀ c ∈ left, c.id ∉ usage.containers
  nodup_ids : (left.map Container.id).Nodup
  wellFormed : ∀ c ∈ left, c.WellFormed

/-- Nothing is in use before a run. -/
theorem Stock.Sound.remaining (h : stock.Sound) : Remaining stock {} stock.containers where
  used := ⟨[], rfl, by simp⟩
  free := by simp
  nodup_ids := h.nodup_container_ids
  wellFormed _ hc := h.wellFormed hc

theorem Remaining.of_containers_eq {usage usage' : Usage} {left : List Container}
    (h : Remaining stock usage left) (heq : usage'.containers = usage.containers) :
    Remaining stock usage' left where
  used := by simpa only [heq] using h.used
  free := by simpa only [heq] using h.free
  nodup_ids := h.nodup_ids
  wellFormed := h.wellFormed

/-- Taking the first container that is left leaves those after it. The ones in use are still those
before, and this one. -/
theorem Remaining.take {usage : Usage} {c : Container} {left : List Container}
    (h : Remaining stock usage (c :: left)) :
    Remaining stock (usage.take (.container c)) left where
  used := by
    obtain ⟨before, hsplit, hused⟩ := h.used
    refine ⟨before ++ [c], by simpa using hsplit, fun other hother => ?_⟩
    rcases List.mem_append.1 hother with hold | hnew
    · exact List.mem_cons_of_mem _ (hused other hold)
    · rw [List.mem_singleton.1 hnew]
      exact List.mem_cons_self
  free other hother hmem := by
    -- a number belongs to one container
    have hids := h.nodup_ids
    rw [List.map_cons, List.nodup_cons] at hids
    rcases List.mem_cons.1 hmem with hid | hold
    · exact hids.1 (hid ▸ List.mem_map_of_mem hother)
    · exact h.free other (List.mem_cons_of_mem _ hother) hold
  nodup_ids := h.nodup_ids.of_cons
  wellFormed other hother := h.wellFormed other (List.mem_cons_of_mem _ hother)

/-- **A target with the keys of the first container that is left is granted this container.** One
step of the run over a page that the markup is faithful to. -/
theorem Remaining.answers {usage : Usage} {c : Container} {left : List Container}
    (h : Remaining stock usage (c :: left)) {target : Target} (hseeks : target.Seeks)
    (hsame : SameKeys target c)
    (hrequired : ∃ required, thresholds.required target.keys.toFinset.card = .ok required
      ∧ required ≤ target.keys.toFinset.card) :
    Answers stock thresholds usage target.request (.container c) := by
  obtain ⟨before, hsplit, hused⟩ := h.used
  obtain ⟨required, hok, hle⟩ := hrequired
  have hfind : Container.find? stock.containers usage.containers thresholds target.keys
      = .ok (some c) := by
    rw [hsplit]
    exact find?_of_sameKeys hsame (h.wellFormed c List.mem_cons_self) hused
      (h.free c List.mem_cons_self) hok hle
  have hrequest : target.request = .container target.keys :=
    request_eq_container_iff.2 ⟨hseeks.1, rfl, hseeks.2⟩
  rw [hrequest]
  exact .container hfind

/-- **A run over a walk whose key sets are those of the containers that are left, in order, grants
these in order.** -/
theorem assign_of_forall₂ {walk : List Target} {usage : Usage} {left : List Container}
    (hleft : Remaining stock usage left)
    (hkeys : List.Forall₂ SameKeys (walk.filter fun target => target.Seeks) left)
    (hrequired : ∀ target ∈ walk, target.Seeks → ∃ required,
      thresholds.required target.keys.toFinset.card = .ok required
        ∧ required ≤ target.keys.toFinset.card) :
    ∃ grants, assign stock thresholds usage (walk.map Target.request) = .ok grants
      ∧ soughtGrants walk grants = left.map .container := by
  -- the usage changes with every target, and what is left of the stock with every one that seeks
  induction walk generalizing usage left with
  | nil =>
    obtain rfl : left = [] := by simpa using hkeys
    exact ⟨[], rfl, rfl⟩
  | cons target rest ih =>
    obtain ⟨htarget, hrest⟩ := List.forall_mem_cons.1 hrequired
    by_cases hseeks : target.Seeks
    · -- the first container that is left is the one for this target
      rw [List.filter_cons_of_pos (by simpa using hseeks)] at hkeys
      cases hkeys with
      | @cons _ c _ left hsame hkeys =>
        obtain ⟨more, hmore, hgrants⟩ := ih hleft.take hkeys hrest
        refine ⟨.container c :: more, ?_, ?_⟩
        · exact assign_cons_eq_ok.2
            ⟨_, more, rfl, hleft.answers hseeks hsame (htarget hseeks), hmore⟩
        · rw [soughtGrants_cons_of_seeks hseeks, hgrants, List.map_cons]
    · -- any other target takes no container
      rw [List.filter_cons_of_neg (by simpa using hseeks)] at hkeys
      have hrequest : ∀ keys, target.request ≠ .container keys := by
        intro keys hcontainer
        obtain ⟨hholder, rfl, hne⟩ := request_eq_container_iff.1 hcontainer
        exact hseeks ⟨hholder, hne⟩
      obtain ⟨grant, hgrant⟩ := exists_answers stock thresholds usage
        fun keys hkeys => absurd hkeys (hrequest keys)
      obtain ⟨more, hmore, hgrants⟩ :=
        ih (hleft.of_containers_eq (hgrant.containers_take hrequest)) hkeys hrest
      refine ⟨grant :: more, ?_, ?_⟩
      · exact assign_cons_eq_ok.2 ⟨grant, more, rfl, hgrant, hmore⟩
      · rw [soughtGrants_cons_of_not_seeks hseeks, hgrants]

/-- **Faithful recovery of containers.** If the sections and groups that ask for a container have
the keys of the containers of the markup, in the same order, and no more keys have to be shared than
a target has, then the run completes and grants them these containers in order. By default, no more
keys have to be shared than there are; only out of the range of the format is no number given. -/
theorem faithful_containers :
    (∀ {document : Document} {html : String} {defined : List String} {stock : Stock}
      {thresholds : Thresholds}, Stock.ofMarkup html defined = .ok stock →
      List.Forall₂ SameKeys (document.walk.filter fun target => target.Seeks) stock.containers →
      (∀ target ∈ document.walk, target.Seeks → ∃ required,
        thresholds.required target.keys.toFinset.card = .ok required
          ∧ required ≤ target.keys.toFinset.card) →
      ∃ grants, assign stock thresholds {} (targets document) = .ok grants
        ∧ recover stock thresholds document = .ok (dress document grants)
        ∧ soughtGrants document.walk grants = stock.containers.map .container)
    ∧ ∀ size : Nat, 0 < size →
      (∃ required, ({} : Thresholds).required size = .ok required ∧ required ≤ size)
        ∨ (({} : Thresholds).required size = .error .infinite ∧ 2 ^ 1023 ≤ size) := by
  constructor
  · intro document html defined stock thresholds hstock hkeys hrequired
    have hs := Stock.sound_ofMarkup hstock
    -- each target that seeks finds the first container left, since the key sets agree one by one
    obtain ⟨grants, hgrants, hsought⟩ := assign_of_forall₂ hs.remaining hkeys hrequired
    rw [← targets_eq_map_walk] at hgrants
    exact ⟨grants, hgrants, by simp [recover, hgrants, Except.map], hsought⟩
  · exact fun _ hsize => Thresholds.required_default_le hsize

/-- The three wrappers go to the section and the two groups. -/
theorem faithful_containers_nestedGroups :
    ∃ stock grants, Stock.ofMarkup nestedWrappers ["_"] = .ok stock
      ∧ stock.containers.map Container.classes = [["_"], ["_"], ["_"]]
      ∧ assign stock {} {} (targets nestedGroups) = .ok grants
      ∧ soughtGrants nestedGroups.walk grants = stock.containers.map .container := by
  have hseen : (Stock.ofMarkup nestedWrappers ["_"]).toOption.map
      (fun stock => (stock.containers.map Container.classes,
        stock.containers.map fun c => c.keys.toFinset))
      = some ([["_"], ["_"], ["_"]],
        (nestedGroups.walk.filter fun target => target.Seeks).map fun target =>
          target.keys.toFinset) := by
    decide +kernel
  obtain ⟨stock, hstock, hseen⟩ := Stock.exists_of_map hseen
  obtain ⟨hclasses, hkeys⟩ := Prod.mk.inj hseen
  -- group by group the computed key sets are those of the containers
  have hsame : List.Forall₂ SameKeys (nestedGroups.walk.filter fun target => target.Seeks)
      stock.containers := by
    rw [← List.forall₂_eq_eq_eq, List.forall₂_map_left_iff, List.forall₂_map_right_iff] at hkeys
    exact hkeys.flip.imp fun _ _ h => h.symm
  obtain ⟨grants, hgrants, -, hsought⟩ :=
    @faithful_containers.1 nestedGroups nestedWrappers ["_"] stock {} hstock hsame
    fun target htarget hseeks => ⟨1, required_nestedGroups target htarget,
      Finset.card_pos.2 (List.toFinset_nonempty_iff _ |>.2 hseeks.2)⟩
  exact ⟨stock, grants, hstock, hclasses, hgrants, hsought⟩

/-! ## Leaves -/

/-- The key of the leaf node that a target is, if it is one. -/
def Target.leafKey? : Target → Option String
  | .region _ => none
  | .node n => (nodeLeaf? n).map Prod.snd

/-- The keys of the leaf nodes of a walk. -/
def leafKeys (walk : List Target) : List String := walk.filterMap Target.leafKey?

/-- The leaf is what the search by key alone finds, so that no other leaf of the kind is looked
for. -/
def FoundByKey (stock : Stock) (usage : Usage) (key : String) (leaf : Leaf) : Prop :=
  (stock.index.withKey key).find? (fun leaf => !usage.leaves.contains leaf.id) = some leaf

/-- The leaves in use are, for every key, as many of the first ones with this key as there were
nodes with it. -/
def Consumed (stock : Stock) (keys : List String) (usage : Usage) : Prop :=
  ∀ key, (stock.index.withKey key).filter (fun leaf => !usage.leaves.contains leaf.id)
    = (stock.index.withKey key).drop (keys.count key)

theorem consumed_nil (stock : Stock) : Consumed stock [] {} := by
  intro key
  simp

theorem leafKey?_eq_none_of_request {target : Target}
    (h : ∀ kind key, target.request ≠ .leaf kind key) : target.leafKey? = none := by
  cases target with
  | region s => rfl
  | node n =>
    cases hleaf : nodeLeaf? n with
    | none => simp [Target.leafKey?, hleaf]
    | some found => exact absurd (request_eq_leaf_iff.2 ⟨n, rfl, hleaf⟩) (h found.1 found.2)

/-- After a leaf was taken, what is unused of a bucket is what was unused before without it. -/
theorem Consumed.filter_take {keys : List String} {usage : Usage} (h : Consumed stock keys usage)
    (leaf : Leaf) (key : String) :
    (stock.index.withKey key).filter
        (fun found => !(usage.take (.leaf leaf)).leaves.contains found.id)
      = ((stock.index.withKey key).drop (keys.count key)).filter
          (fun found => found.id ≠ leaf.id) := by
  rw [← h key, List.filter_filter]
  refine List.filter_congr fun found _ => ?_
  simp [Usage.take]

/-- Taking the next leaf with a key lengthens what is in use of the bucket of this key, and of no
other bucket. -/
theorem Consumed.take {keys : List String} {usage : Usage} (h : Consumed stock keys usage)
    (hs : stock.index.Sound) {key : String} {leaf : Leaf} {later : List Leaf}
    (hdrop : (stock.index.withKey key).drop (keys.count key) = leaf :: later) :
    Consumed stock (keys ++ [key]) (usage.take (.leaf leaf)) := by
  -- no two leaves share a number, so a number that is used marks one leaf only
  have hids : (stock.index.leaves.map Leaf.id).Nodup := nodup_map_of_places hs.id_eq
  intro other
  rw [h.filter_take, List.count_append]
  by_cases hother : other = key
  · subst hother
    -- the leaf that is taken is the first of those left, and it is not among the later ones
    have hnodup : (((stock.index.withKey other).drop (keys.count other)).map Leaf.id).Nodup := by
      rw [hs.withKey_eq]
      exact hids.sublist (((List.drop_sublist _ _).trans List.filter_sublist).map _)
    rw [hdrop, List.map_cons, List.nodup_cons] at hnodup
    rw [← List.drop_drop, hdrop, List.filter_cons_of_neg (by simp), List.count_singleton_self,
      List.drop_one, List.tail_cons]
    refine List.filter_eq_self.2 fun found hfound => ?_
    have hne : found.id ≠ leaf.id := fun hid => hnodup.1 (hid ▸ List.mem_map_of_mem hfound)
    simpa using hne
  · -- a number belongs to one leaf, and that leaf has another key
    have hleaf : leaf ∈ stock.index.leaves ∧ leaf.key = key := by
      have hin : leaf ∈ stock.index.withKey key :=
        List.mem_of_mem_drop (hdrop ▸ List.mem_cons_self)
      rw [hs.withKey_eq] at hin
      simpa using hin
    rw [List.count_singleton, if_neg (by simpa using fun hkey : key = other => hother hkey.symm),
      Nat.add_zero]
    refine List.filter_eq_self.2 fun found hfound => ?_
    have hin := List.mem_of_mem_drop hfound
    rw [hs.withKey_eq, List.mem_filter] at hin
    have hne : found.id ≠ leaf.id := by
      intro hid
      obtain rfl := List.inj_on_of_nodup_map hids hin.1 hleaf.1 hid
      have hkey : found.key = other := by simpa using hin.2
      exact hother (hkey.symm.trans hleaf.2)
    simpa using hne

/-- **A search for a key of which leaves are left finds the next one by its key, and the leaves in
use are then those up to it.** -/
theorem Consumed.next {keys : List String} {usage : Usage} (h : Consumed stock keys usage)
    (hs : stock.index.Sound) {key : String}
    (hlt : keys.count key < (stock.index.withKey key).length) :
    ∃ leaf, (stock.index.withKey key)[keys.count key]? = some leaf
      ∧ FoundByKey stock usage key leaf
      ∧ Consumed stock (keys ++ [key]) (usage.take (.leaf leaf)) := by
  have hdrop := List.drop_eq_getElem_cons hlt
  generalize (stock.index.withKey key)[keys.count key] = leaf at hdrop
  refine ⟨leaf, ?_, ?_, h.take hs hdrop⟩
  · rw [← List.head?_drop, hdrop, List.head?_cons]
  · rw [FoundByKey, ← List.head?_filter, h key, hdrop, List.head?_cons]

/-- What is found by its key is granted. -/
theorem FoundByKey.eq_of_answers {usage : Usage} {key : String} {leaf : Leaf}
    (h : FoundByKey stock usage key leaf) {kind : LeafKind} {grant : Grant}
    (hgrant : Answers stock thresholds usage (.leaf kind key) grant) : grant = .leaf leaf := by
  have hfind : stock.index.find? usage.leaves key (some kind) = some leaf :=
    Option.or_eq_some_iff.2 (Or.inl h)
  cases hgrant with
  | noLeaf hnone => simp [hfind] at hnone
  | leaf hsome => rw [Option.some.inj (hsome.symm.trans hfind)]

/-- **A run over a walk for whose keys there are enough leaves left finds, for every leaf node, the
next one with its key, by its key.** -/
theorem assign_of_enough (hs : stock.index.Sound) {walk : List Target} {usage : Usage}
    {prior : List String} (hused : Consumed stock prior usage)
    (henough : ∀ key, (prior ++ leafKeys walk).count key ≤ (stock.index.withKey key).length)
    {grants : List Grant} (h : assign stock thresholds usage (walk.map Target.request) = .ok grants)
    {place : Nat} {node : Node} {kind : LeafKind} {key : String}
    (hnode : walk[place]? = some (.node node)) (hkey : nodeLeaf? node = some (kind, key)) :
    ∃ leaf, grants[place]? = some (.leaf leaf)
      ∧ FoundByKey stock (usage.takeAll (grants.take place)) key leaf
      ∧ (stock.index.withKey key)[(prior ++ leafKeys (walk.take place)).count key]?
        = some leaf := by
  induction walk generalizing usage prior grants place with
  | nil => simp at hnode
  | cons target rest ih =>
    rw [List.map_cons] at h
    obtain ⟨grant, more, rfl, hgrant, hmore⟩ := assign_cons_eq_ok.1 h
    by_cases hleaf : ∃ kind key, target.request = .leaf kind key
    · obtain ⟨kind', key', hrequest⟩ := hleaf
      obtain ⟨n, rfl, hkey'⟩ := request_eq_leaf_iff.1 hrequest
      have hkeys : ∀ targets, leafKeys (.node n :: targets) = key' :: leafKeys targets := by
        intro targets
        simp [leafKeys, Target.leafKey?, hkey']
      -- the node itself is one of those that are counted
      have hlt : prior.count key' < (stock.index.withKey key').length := by
        have hone := henough key'
        rw [hkeys, List.count_append, List.count_cons_self] at hone
        omega
      obtain ⟨leaf, hplace, hfound, hnext⟩ := hused.next hs hlt
      obtain rfl : grant = .leaf leaf := hfound.eq_of_answers (hrequest ▸ hgrant)
      cases place with
      | zero =>
        obtain rfl : n = node := by simpa using hnode
        obtain ⟨rfl, rfl⟩ := Prod.mk.inj (Option.some.inj (hkey'.symm.trans hkey))
        exact ⟨leaf, rfl, hfound, by simpa [leafKeys] using hplace⟩
      | succ place =>
        obtain ⟨found, hfound, hbyKey, hat⟩ := ih hnext
          (by intro other; simpa [hkeys] using henough other) hmore (by simpa using hnode)
        exact ⟨found, by simpa using hfound, hbyKey, by simpa [hkeys] using hat⟩
    · -- any other target takes no leaf
      have hrequest : ∀ kind key, target.request ≠ .leaf kind key :=
        fun kind key heq => hleaf ⟨kind, key, heq⟩
      have hkeys : ∀ targets, leafKeys (target :: targets) = leafKeys targets := by
        intro targets
        simp [leafKeys, leafKey?_eq_none_of_request hrequest]
      have hused' : Consumed stock prior (usage.take grant) := by
        simpa only [Consumed, hgrant.leaves_take hrequest] using hused
      cases place with
      | zero =>
        obtain rfl : target = .node node := by simpa using hnode
        exact absurd (request_eq_leaf_iff.2 ⟨node, rfl, hkey⟩) (hrequest kind key)
      | succ place =>
        obtain ⟨found, hfound, hbyKey, hat⟩ := ih hused'
          (by simpa only [hkeys] using henough) hmore (by simpa using hnode)
        exact ⟨found, by simpa using hfound, hbyKey, by simpa [hkeys] using hat⟩

/-- **Faithful recovery of leaves.** If no key has more nodes than leaves, then a leaf node that has
`j` nodes with its key before it in the walk is granted the leaf that has `j` leaves with this key
before it in the markup. It is found by its key; the search never falls back on the kind. The run
completes if the thresholds give the numbers of keys that it asks for. -/
theorem faithful_leaves {document : Document} {html : String} {defined : List String}
    {stock : Stock} {thresholds : Thresholds} (hstock : Stock.ofMarkup html defined = .ok stock)
    (henough : ∀ key, (leafKeys document.walk).count key
      ≤ (stock.index.leaves.map Leaf.key).count key) :
    (thresholds.CountFor document → ∃ grants,
      assign stock thresholds {} (targets document) = .ok grants
        ∧ recover stock thresholds document = .ok (dress document grants))
    ∧ ∀ {grants : List Grant}, assign stock thresholds {} (targets document) = .ok grants →
      ∀ {place : Nat} {node : Node} {kind : LeafKind} {key : String},
        document.walk[place]? = some (.node node) → nodeLeaf? node = some (kind, key) →
        ∃ leaf, grants[place]? = some (.leaf leaf)
          ∧ FoundByKey stock (({} : Usage).takeAll (grants.take place)) key leaf
          ∧ (stock.index.leaves.filter fun leaf => leaf.key = key)[
              (leafKeys (document.walk.take place)).count key]? = some leaf := by
  have hs := (Stock.sound_ofMarkup hstock).index
  -- the hypothesis in terms of buckets
  have hlength : ∀ key, (stock.index.withKey key).length
      = (stock.index.leaves.map Leaf.key).count key := by
    intro key
    rw [hs.withKey_eq, List.count, List.countP_map, List.countP_eq_length_filter]
    congr 1
  constructor
  · intro hcount
    obtain ⟨grants, hgrants⟩ := hcount.exists_assign stock
    exact ⟨grants, hgrants, by simp [recover, hgrants, Except.map]⟩
  -- as many leaves with the key were used as nodes asked for it before
  · intro grants hgrants place node kind key hnode hkey
    rw [targets_eq_map_walk] at hgrants
    obtain ⟨leaf, hleaf, hfound, hplace⟩ := assign_of_enough hs (consumed_nil stock)
      (fun key => by simpa [hlength] using henough key) hgrants hnode hkey
    refine ⟨leaf, hleaf, hfound, ?_⟩
    rw [← hs.withKey_eq]
    simpa using hplace

/-- The second heading of the page, at its last place, gets the second heading of the markup: one
node with its key stands before it, and one leaf. -/
theorem faithful_leaves_nestedGroups :
    ∃ stock grants leaf, Stock.ofMarkup nestedWrappers ["_"] = .ok stock
      ∧ assign stock {} {} (targets nestedGroups) = .ok grants
      ∧ grants[6]? = some (.leaf leaf)
      ∧ FoundByKey stock (({} : Usage).takeAll (grants.take 6)) "h1|Hi" leaf
      ∧ (stock.index.leaves.filter fun leaf => leaf.key = "h1|Hi")[1]? = some leaf := by
  have hseen : (Stock.ofMarkup nestedWrappers ["_"]).toOption.map
      (fun stock => stock.index.leaves.map Leaf.key)
      = some ["p|Ho", "h1|Hi", "p|Ho", "h1|Hi"] := by
    decide +kernel
  obtain ⟨stock, hstock, hkeys⟩ := Stock.exists_of_map hseen
  have hwalk : leafKeys nestedGroups.walk = ["h1|Hi", "p|Ho", "p|Ho", "h1|Hi"] := by
    decide +kernel
  -- no key is asked for more often than it stands in the markup
  have henough : ∀ key, (leafKeys nestedGroups.walk).count key
      ≤ (stock.index.leaves.map Leaf.key).count key := by
    intro key
    rw [hkeys, hwalk]
    simp only [List.count_cons, List.count_nil]
    omega
  obtain ⟨hcompletes, hfaithful⟩ :=
    @faithful_leaves nestedGroups nestedWrappers ["_"] stock {} hstock henough
  obtain ⟨grants, hgrants, -⟩ :=
    hcompletes fun target htarget _ _ => ⟨1, required_nestedGroups target htarget⟩
  -- the seventh step of the walk, the second heading with this text
  have hnode : nestedGroups.walk[6]? = some (.node (headingNode "Hi" none)) := rfl
  have hkey : nodeLeaf? (headingNode "Hi" none) = some (.heading, "h1|Hi") := by decide +kernel
  obtain ⟨leaf, hleaf, hfound, hat⟩ := hfaithful hgrants hnode hkey
  have hbefore : (leafKeys (nestedGroups.walk.take 6)).count "h1|Hi" = 1 := by decide +kernel
  exact ⟨stock, grants, leaf, hstock, hgrants, hleaf, hfound, by rw [← hbefore]; exact hat⟩

end BlockTheme.Recovery
