import BlockTheme.Document.Summary
import BlockTheme.Proofs.Recovery.Faithful
import BlockTheme.Proofs.Recovery.Outcome

/-!
# How a stock is used up

What is in use after some of the requests of a run (`Reached`), whether or not the run goes on to its
end. Leaves with the same key, and containers with the same set of keys, go out in the order in which
they stand in the markup (`InOrder`, and `used_isPrefix` for the buckets). And no leaf is left over
while a node of its kind goes without one: of every kind as many leaves are in use as were asked for,
or all of them (`countInUse_recovered`).
-/

namespace BlockTheme.Recovery

variable {stock : Stock} {thresholds : Thresholds} {requests : List Request}

/-! ## The states of a run -/

/-- What is in use after a run has answered some of its requests, and the requests that are left. -/
inductive Reached (stock : Stock) (thresholds : Thresholds) (requests : List Request) :
    Usage → List Request → Prop
  | start : Reached stock thresholds requests {} requests
  | step {usage usage' : Usage} {request : Request} {rest : List Request} {grant : Grant}
      (before : Reached stock thresholds requests usage (request :: rest))
      (hanswer : answer stock thresholds usage request = .ok (grant, usage')) :
      Reached stock thresholds requests usage' rest

/-- What is still to be asked for is the end of what there was to ask for. -/
theorem Reached.suffix {usage : Usage} {rest : List Request}
    (h : Reached stock thresholds requests usage rest) : rest <:+ requests := by
  induction h with
  | start => exact List.suffix_rfl
  | step before hanswer ih => exact (List.suffix_cons _ _).trans ih

/-- **What holds at the start and is kept by every answer holds in every state of a run.** The
induction over runs is made here once; the invariants of this module are instances of it. -/
theorem Reached.invariant {P : Usage → Prop} (hstart : P {})
    (hstep : ∀ {usage : Usage} {request : Request} {grant : Grant}, request ∈ requests →
      Answers stock thresholds usage request grant → P usage → P (usage.take grant))
    {usage : Usage} {rest : List Request} (h : Reached stock thresholds requests usage rest) :
    P usage := by
  induction h with
  | start => exact hstart
  | step before hanswer ih =>
    obtain ⟨hanswers, rfl⟩ := answer_eq_ok.1 hanswer
    exact hstep (before.suffix.subset List.mem_cons_self) hanswers ih

/-- What a run over the first of the requests grants is in use after these. -/
theorem Reached.takeAll {usage : Usage} {before after : List Request}
    (h : Reached stock thresholds requests usage (before ++ after)) {grants : List Grant}
    (hassign : assign stock thresholds usage before = .ok grants) :
    Reached stock thresholds requests (usage.takeAll grants) after := by
  induction before generalizing usage grants with
  | nil =>
    obtain rfl := Except.ok.inj hassign
    exact h
  | cons request rest ih =>
    obtain ⟨grant, more, rfl, hanswers, hmore⟩ := assign_cons_eq_ok.1 hassign
    exact ih (h.step (answer_eq_ok.2 ⟨hanswers, rfl⟩)) hmore

/-- A request for a leaf names a key of the kind that it names. -/
def Request.TellsKind (request : Request) : Prop :=
  ∀ {kind : LeafKind} {key : String}, request = .leaf kind key →
    LeafKind.ofKey? key = some kind

/-- A document asks for leaves by keys that tell their kind. -/
theorem tellsKind_of_mem_targets {document : Document} {request : Request}
    (h : request ∈ targets document) : request.TellsKind := by
  rw [targets_eq_map_walk] at h
  obtain ⟨target, -, rfl⟩ := List.mem_map.1 h
  intro kind key hrequest
  obtain ⟨node, -, hnode⟩ := request_eq_leaf_iff.1 hrequest
  exact ofKey?_nodeLeaf? hnode

/-! ## In the order of the markup -/

/-- Of leaves with the same key, and of containers with the same set of keys, none is in use before
those with lower numbers are. -/
structure InOrder (stock : Stock) (usage : Usage) : Prop where
  leaves : ∀ {a b : Leaf}, a ∈ stock.index.leaves → b ∈ stock.index.leaves → a.key = b.key →
    a.id < b.id → b.id ∈ usage.leaves → a.id ∈ usage.leaves
  containers : ∀ {a b : Container}, a ∈ stock.containers → b ∈ stock.containers →
    a.keys.toFinset = b.keys.toFinset → a.id < b.id → b.id ∈ usage.containers →
    a.id ∈ usage.containers

/-- **An answer keeps the order.** What it grants is the first one that is left with its key, or
with its keys, and those before it are in use already. -/
theorem InOrder.take (hs : stock.Sound) {usage : Usage} {request : Request} {grant : Grant}
    (htells : request.TellsKind) (hanswers : Answers stock thresholds usage request grant)
    (h : InOrder stock usage) : InOrder stock (usage.take grant) := by
  cases hanswers with
  | nothing => exact h
  | noLeaf _ => exact h
  | noContainer _ => exact h
  | @leaf kind key found hfind =>
    refine ⟨fun {a b} ha hb hsame hlt hused => ?_, h.containers⟩
    rcases List.mem_cons.1 hused with hid | hold
    · -- a number belongs to one leaf, so `b` is the one that is granted now
      have hfound := (LeafIndex.find?_eq_some hs.index (htells rfl) hfind).1
      obtain rfl : b = found := hs.index.eq_of_id_eq hb hfound hid
      exact List.mem_cons_of_mem _
        (LeafIndex.mem_of_find?_of_lt hs.index (htells rfl) hfind ha hsame hlt)
    · exact List.mem_cons_of_mem _ (h.leaves ha hb hsame hlt hold)
  | @container keys found hfind =>
    refine ⟨h.leaves, fun {a b} ha hb hsame hlt hused => ?_⟩
    -- in the same way for the containers
    rcases List.mem_cons.1 hused with hid | hold
    · have hfound := (Container.find?_eq_some hfind).1
      obtain rfl : b = found := List.inj_on_of_nodup_map hs.nodup_container_ids hb hfound hid
      exact List.mem_cons_of_mem _
        (Container.mem_of_find?_of_lt hs.container_id_eq hs.wellFormed hfind ha hsame hlt)
    · exact List.mem_cons_of_mem _ (h.containers ha hb hsame hlt hold)

theorem inOrder_start (stock : Stock) : InOrder stock {} where
  leaves _ _ _ _ hused := absurd hused List.not_mem_nil
  containers _ _ _ _ hused := absurd hused List.not_mem_nil

/-- **In every state of a run, what is in use went out in order.** Leaves of a key in document
order, and containers with the same keys as well. -/
theorem Reached.inOrder (hs : stock.Sound) (htells : ∀ request ∈ requests, request.TellsKind)
    {usage : Usage} {rest : List Request} (h : Reached stock thresholds requests usage rest) :
    InOrder stock usage :=
  h.invariant (inOrder_start stock) fun hrequest hanswers hbefore =>
    hbefore.take hs (htells _ hrequest) hanswers

/-- Members that pass a test are a prefix if none of them comes after one that fails it. -/
theorem filter_isPrefix_of_pairwise {α : Type} {p : α → Bool} {members : List α}
    (h : members.Pairwise fun a b => p b = true → p a = true) : members.filter p <+: members := by
  induction members with
  | nil => exact List.prefix_rfl
  | cons a rest ih =>
    obtain ⟨hfirst, hrest⟩ := List.pairwise_cons.1 h
    by_cases ha : p a = true
    · rw [List.filter_cons_of_pos ha]
      exact (List.prefix_cons_inj a).2 (ih hrest)
    · have hnone : rest.filter p = [] :=
        List.filter_eq_nil_iff.2 fun b hb hpass => ha (hfirst b hb hpass)
      rw [List.filter_cons_of_neg ha, hnone]
      exact List.nil_prefix

/-- Members that go out in order leave a prefix of every group: those that are in use come first.
The members are numbered by their places, so that the order of the numbers is that of the list. -/
theorem filter_mem_isPrefix {α : Type} {number : α → Nat} {members : List α}
    (hplaces : ∀ {place : Nat} {a : α}, members[place]? = some a → number a = place)
    (group : α → Bool) {used : List Nat}
    (h : ∀ a ∈ members, ∀ b ∈ members, group a = true → group b = true → number a < number b →
      number b ∈ used → number a ∈ used) :
    ((members.filter group).filter fun a => used.contains (number a))
      <+: members.filter group := by
  refine filter_isPrefix_of_pairwise ?_
  have hrise : (members.filter group).Pairwise fun a b => number a < number b :=
    (pairwise_lt_of_places hplaces).filter _
  refine hrise.imp_of_mem fun {a b} ha hb hlt hused => ?_
  rw [List.mem_filter] at ha hb
  simp only [List.contains_iff_mem] at hused ⊢
  exact h a ha.1 b hb.1 ha.2 hb.2 hlt hused

/-- **Duplicates are consumed in the order of the markup.** In every state that a run over any document
and markup reaches, the leaves in use with a key are the first ones in the bucket of this key, and the
containers in use with a set of keys are the first ones with this set. -/
theorem used_isPrefix {document : Document} {html : String} {defined : List String} {stock : Stock}
    {thresholds : Thresholds} {usage : Usage} {rest : List Request}
    (hstock : Stock.ofMarkup html defined = .ok stock)
    (h : Reached stock thresholds (targets document) usage rest) :
    (∀ key, ((stock.index.withKey key).filter fun leaf => usage.leaves.contains leaf.id)
        <+: stock.index.withKey key)
      ∧ ∀ keys : Finset String,
        ((stock.containers.filter fun c => c.keys.toFinset = keys).filter
            fun c => usage.containers.contains c.id)
          <+: stock.containers.filter fun c => c.keys.toFinset = keys := by
  have hs := Stock.sound_ofMarkup hstock
  -- before any used leaf all earlier ones of its key are used, hence they are the first ones
  have horder := h.inOrder hs fun _ => tellsKind_of_mem_targets
  constructor
  · intro key
    rw [hs.index.withKey_eq]
    refine filter_mem_isPrefix hs.index.id_eq _ fun a ha b hb hkeyA hkeyB hlt hused => ?_
    rw [decide_eq_true_eq] at hkeyA hkeyB
    exact horder.leaves ha hb (hkeyA.trans hkeyB.symm) hlt hused
  · intro keys
    refine filter_mem_isPrefix hs.container_id_eq _ fun a ha b hb hkeysA hkeysB hlt hused => ?_
    rw [decide_eq_true_eq] at hkeysA hkeysB
    exact horder.containers ha hb (hkeysA.trans hkeysB.symm) hlt hused

/-- On the page with nested groups, after the section, the first group and the first heading: of the two
leaves with the key of the heading the first one is in use. -/
theorem used_isPrefix_nestedGroups :
    ∃ stock usage, Stock.ofMarkup nestedWrappers ["_"] = .ok stock
      ∧ Reached stock {} (targets nestedGroups) usage ((targets nestedGroups).drop 3)
      ∧ usage.leaves = [1] ∧ usage.containers = [1, 0]
      ∧ (stock.index.withKey "h1|Hi").map Leaf.id = [1, 3]
      ∧ ((stock.index.withKey "h1|Hi").filter fun leaf => usage.leaves.contains leaf.id)
        <+: stock.index.withKey "h1|Hi" := by
  -- what was used after three targets, computed
  have hseen : (Stock.ofMarkup nestedWrappers ["_"]).toOption.map
      (fun stock => ((assign stock {} {} ((targets nestedGroups).take 3)).toOption.map
          fun grants =>
            ((({} : Usage).takeAll grants).leaves, (({} : Usage).takeAll grants).containers),
        (stock.index.withKey "h1|Hi").map Leaf.id))
      = some (some ([1], [1, 0]), [1, 3]) := by
    decide +kernel
  obtain ⟨stock, hstock, hseen⟩ := Stock.exists_of_map hseen
  obtain ⟨hused, hbucket⟩ := Prod.mk.inj hseen
  cases hgrants : assign stock {} {} ((targets nestedGroups).take 3) with
  | error why => simp [hgrants, Except.toOption] at hused
  | ok grants =>
    simp only [hgrants, Except.toOption, Option.map_some, Option.some.injEq, Prod.mk.injEq] at hused
    have hstart : Reached stock {} (targets nestedGroups) {}
        ((targets nestedGroups).take 3 ++ (targets nestedGroups).drop 3) := by
      rw [List.take_append_drop]
      exact .start
    have hreached := hstart.takeAll hgrants
    exact ⟨stock, _, hstock, hreached, hused.1, hused.2, hbucket,
      (used_isPrefix hstock hreached).1 "h1|Hi"⟩

/-! ## None left idle -/

/-- The key of a node, if it is a keyed leaf of a kind. -/
def nodeKeyOf? (kind : LeafKind) (node : Node) : Option String :=
  (nodeLeaf? node).bind fun leaf => if leaf.1 = kind then some leaf.2 else none

/-- The key of a request, if it asks for a leaf of a kind. -/
def Request.keyOf? (kind : LeafKind) : Request → Option String
  | .leaf asked key => if asked = kind then some key else none
  | _ => none

/-- The keys of the requests for leaves of a kind. -/
def keysAsked (kind : LeafKind) (requests : List Request) : List String :=
  requests.filterMap (Request.keyOf? kind)

/-- The keys of a kind are gathered request by request. -/
theorem keysAsked_cons (kind : LeafKind) (request : Request) (rest : List Request) :
    keysAsked kind (request :: rest) = (request.keyOf? kind).toList ++ keysAsked kind rest := by
  rw [keysAsked, List.filterMap_cons]
  cases request.keyOf? kind <;> rfl

/-- The rest of the requests asks for no more keys of a kind than all of them do. With this the
count of leaves in use is bounded from above in the middle of a run. -/
theorem length_keysAsked_le {rest : List Request} (h : rest <:+ requests) (kind : LeafKind) :
    (keysAsked kind rest).length ≤ (keysAsked kind requests).length :=
  (h.sublist.filterMap _).length_le

/-- How many leaves of a kind are in use. -/
def countInUse (stock : Stock) (usage : Usage) (kind : LeafKind) : Nat :=
  (stock.index.ofKind kind).countP fun leaf => usage.leaves.contains leaf.id

/-- No more leaves of a kind are in use than there are. -/
theorem countInUse_le (stock : Stock) (usage : Usage) (kind : LeafKind) :
    countInUse stock usage kind ≤ (stock.index.ofKind kind).length := List.countP_le_length

/-- Taking a leaf that was not in use makes one more in its bucket, since no other leaf has its
number. -/
theorem countP_contains_cons {bucket : List Leaf} (hnodup : (bucket.map Leaf.id).Nodup)
    {leaf : Leaf} (hmem : leaf ∈ bucket) {used : List Nat} (hunused : leaf.id ∉ used) :
    (bucket.countP fun found => (leaf.id :: used).contains found.id)
      = (bucket.countP fun found => used.contains found.id) + 1 := by
  -- the new number counts at its own leaf and nowhere else
  have hother : ∀ {part : List Leaf}, leaf.id ∉ part.map Leaf.id →
      (part.countP fun found => (leaf.id :: used).contains found.id)
        = part.countP fun found => used.contains found.id := by
    intro part hpart
    refine List.countP_congr fun found hfound => ?_
    have hne : found.id ≠ leaf.id := fun hid => hpart (hid ▸ List.mem_map_of_mem hfound)
    simp [hne]
  obtain ⟨before, after, rfl⟩ := List.append_of_mem hmem
  rw [List.map_append, List.map_cons, List.nodup_append, List.nodup_cons] at hnodup
  have hbefore : leaf.id ∉ before.map Leaf.id :=
    fun hin => hnodup.2.2 _ hin _ List.mem_cons_self rfl
  rw [List.countP_append, List.countP_append, hother hbefore,
    List.countP_cons_of_pos (by simp), hother hnodup.2.1.1,
    List.countP_cons_of_neg (by simpa using hunused)]
  omega

/-- A leaf of the kind makes one more. -/
theorem countInUse_take_leaf (hs : stock.Sound) {usage : Usage} {kind : LeafKind} {found : Leaf}
    (hfound : found ∈ stock.index.ofKind kind) (hunused : found.id ∉ usage.leaves) :
    countInUse stock (usage.take (.leaf found)) kind = countInUse stock usage kind + 1 :=
  countP_contains_cons (hs.index.nodup_ids_ofKind kind) hfound hunused

/-- A leaf of another kind has none of the numbers of this kind. -/
theorem countInUse_take_leaf_of_ne (hs : stock.Sound) {usage : Usage} {kind : LeafKind}
    {found : Leaf} (hfound : found ∈ stock.index.leaves) (hkind : found.kind ≠ kind) :
    countInUse stock (usage.take (.leaf found)) kind = countInUse stock usage kind := by
  refine List.countP_congr fun leaf hleaf => ?_
  have hne : leaf.id ≠ found.id := by
    intro hid
    obtain ⟨hin, hown⟩ := hs.index.mem_ofKind.1 hleaf
    obtain rfl := hs.index.eq_of_id_eq hin hfound hid
    exact hkind hown
  simp [Usage.take, hne]

/-- If a search finds nothing, then all leaves of the kind are in use. -/
theorem countInUse_of_find?_eq_none (hs : stock.Sound) {usage : Usage} {kind : LeafKind}
    {key : String} (hkey : LeafKind.ofKey? key = some kind)
    (hfind : stock.index.find? usage.leaves key (some kind) = none) :
    countInUse stock usage kind = (stock.index.ofKind kind).length := by
  rw [LeafIndex.find?_eq_free hs.index _ hkey, Option.or_eq_none_iff] at hfind
  have hnone : stock.index.free usage.leaves kind = [] := List.head?_eq_none_iff.1 hfind.2
  refine List.countP_eq_length.2 fun leaf hleaf => ?_
  simpa using List.filter_eq_nil_iff.1 hnone leaf hleaf

theorem length_keyOf?_leaf_of_ne {asked kind : LeafKind} (h : asked ≠ kind) (key : String) :
    ((Request.leaf asked key).keyOf? kind).toList.length = 0 := by
  rw [Request.keyOf?, if_neg h]
  rfl

theorem length_keyOf?_leaf (kind : LeafKind) (key : String) :
    ((Request.leaf kind key).keyOf? kind).toList.length = 1 := by
  rw [Request.keyOf?, if_pos rfl]
  rfl

/-- **An answer to a request for a leaf of a kind puts one more leaf of this kind to use, unless all
of them are in use; any other answer leaves their number as it is.** -/
theorem countInUse_take (hs : stock.Sound) {usage : Usage} {request : Request} {grant : Grant}
    (htells : request.TellsKind) (hanswers : Answers stock thresholds usage request grant)
    (kind : LeafKind) :
    countInUse stock (usage.take grant) kind
      = min (countInUse stock usage kind + (request.keyOf? kind).toList.length)
          (stock.index.ofKind kind).length := by
  have hle := countInUse_le stock usage kind
  cases hanswers with
  | nothing => exact (Nat.min_eq_left hle).symm
  | noContainer _ => exact (Nat.min_eq_left hle).symm
  | container _ => exact (Nat.min_eq_left hle).symm
  | @noLeaf asked key hfind =>
    show countInUse stock usage kind = _
    by_cases hasked : asked = kind
    · subst hasked
      have hall := countInUse_of_find?_eq_none hs (htells rfl) hfind
      omega
    · rw [length_keyOf?_leaf_of_ne hasked, Nat.add_zero, Nat.min_eq_left hle]
  | @leaf asked key found hfind =>
    obtain ⟨hin, hkind⟩ := LeafIndex.find?_eq_some hs.index (htells rfl) hfind
    by_cases hasked : asked = kind
    · subst hasked
      have hmore := countInUse_take_leaf hs (hs.index.mem_ofKind.2 ⟨hin, hkind⟩)
        (LeafIndex.not_mem_of_find?_eq_some hfind)
      have hroom := countInUse_le stock (usage.take (.leaf found)) asked
      rw [length_keyOf?_leaf]
      omega
    · rw [countInUse_take_leaf_of_ne hs hin (hkind ▸ hasked), length_keyOf?_leaf_of_ne hasked,
        Nat.add_zero, Nat.min_eq_left hle]

/-- **In every state of a run as many leaves of a kind are in use as were asked for, or all of
them.** Whether the keys that were asked for are those of the leaves plays no part: a search falls
back on the kind. -/
theorem Reached.countInUse_eq (hs : stock.Sound)
    (htells : ∀ request ∈ requests, request.TellsKind) {usage : Usage} {rest : List Request}
    (h : Reached stock thresholds requests usage rest) (kind : LeafKind) :
    countInUse stock usage kind
      = min ((keysAsked kind requests).length - (keysAsked kind rest).length)
          (stock.index.ofKind kind).length := by
  -- on the steps: each request of the kind takes one more leaf, as long as there is one
  induction h with
  | start =>
    have hzero : countInUse stock {} kind = 0 := by
      refine List.countP_eq_zero.2 fun leaf _ => ?_
      simp
    rw [hzero, Nat.sub_self, Nat.zero_min]
  | @step usage usage' request rest grant before hanswer ih =>
    obtain ⟨hanswers, rfl⟩ := answer_eq_ok.1 hanswer
    have hrequest := before.suffix.subset List.mem_cons_self
    have hle := length_keysAsked_le before.suffix kind
    rw [countInUse_take hs (htells _ hrequest) hanswers, ih]
    rw [keysAsked_cons, List.length_append] at hle ⊢
    omega

/-- What groups and sections ask for has no key of a leaf. -/
theorem keyOf?_ofKeys (kind : LeafKind) (keys : List String) :
    (Request.ofKeys keys).keyOf? kind = none := by
  unfold Request.ofKeys
  split <;> rfl

theorem keyOf?_ofNode (kind : LeafKind) (node : Node) :
    (Request.ofNode node).keyOf? kind = nodeKeyOf? kind node := by
  by_cases hgroup : node.kind? = some .group
  · rw [Request.ofNode, if_pos hgroup, keyOf?_ofKeys, nodeKeyOf?, nodeLeaf?_of_group hgroup]
    rfl
  · rw [Request.ofNode, if_neg hgroup, nodeKeyOf?]
    cases nodeLeaf? node <;> rfl

/-- The requests for leaves of a kind are those of the keyed nodes of this kind. -/
theorem keysAsked_targets (kind : LeafKind) (document : Document) :
    keysAsked kind (targets document) = document.nodes.filterMap (nodeKeyOf? kind) := by
  rw [keysAsked, targets, Document.nodes, List.filterMap_flatMap, List.filterMap_flatMap]
  refine List.flatMap_congr fun s _ => ?_
  rw [Request.ofSection, List.filterMap_cons, keyOf?_ofKeys, List.filterMap_map]
  exact List.filterMap_congr fun node _ => keyOf?_ofNode kind node

/-- The keyed nodes of a kind have one key each. -/
theorem length_filterMap_nodeKeyOf? (kind : LeafKind) (nodes : List Node) :
    (nodes.filterMap (nodeKeyOf? kind)).length
      = nodes.countP fun node => (nodeLeaf? node).map Prod.fst = some kind := by
  rw [List.length_filterMap_eq_countP]
  refine List.countP_congr fun node _ => ?_
  unfold nodeKeyOf?
  cases nodeLeaf? node with
  | none => simp
  | some leaf => by_cases hkind : leaf.1 = kind <;> simp [hkind]

section Run

variable {document : Document} {html css : Option String}
  {thresholds : Except Settings.BadThresholds Thresholds}

/-- What is in use at the end of a run. -/
def Run.usage (run : Run document html css thresholds) : Usage := ({} : Usage).takeAll run.grants

theorem Run.reached (run : Run document html css thresholds) :
    Reached run.stock run.limits (targets document) run.usage [] := by
  have hstart : Reached run.stock run.limits (targets document) {} (targets document ++ []) := by
    rw [List.append_nil]
    exact .start
  exact hstart.takeAll run.grants_eq

/-- **No leaf is left idle.** If a recovery is not passed over and ends well, then of every kind as many
leaves of the markup are in use at the end of its run as the document has keyed nodes of this kind, or
all leaves of this kind if there are fewer. -/
theorem countInUse_recovered {result : Document}
    (h : Convert.recovered? thresholds document html css = .ok (some result)) :
    ∃ run : Run document html css thresholds, result = dress document run.grants
      ∧ Reached run.stock run.limits (targets document) run.usage []
      ∧ ∀ kind, countInUse run.stock run.usage kind
        = min (document.nodes.countP fun node => (nodeLeaf? node).map Prod.fst = some kind)
            (run.stock.index.ofKind kind).length := by
  obtain ⟨-, run, hresult⟩ := exists_run_of_eq_some h
  refine ⟨run, hresult, run.reached, fun kind => ?_⟩
  have hcount := run.reached.countInUse_eq (Stock.sound_ofMarkup run.stock_eq)
    (fun _ => tellsKind_of_mem_targets) kind
  rw [hcount, keysAsked_targets, length_filterMap_nodeKeyOf?]
  rfl

end Run

/-- On the page with two headings both get a leaf, though only one leaf has their key: the second
heading gets the other heading of the markup. -/
theorem countInUse_recovered_twoHeadings :
    ∃ result, Convert.recovered? (.ok {}) twoHeadings (some twoWrappers) none = .ok (some result)
      ∧ ∃ run : Run twoHeadings (some twoWrappers) none (.ok {}),
        result = dress twoHeadings run.grants
          ∧ (run.stock.index.ofKind .heading).map Leaf.key = ["h1|Hi", "h2|Ho"]
          ∧ countInUse run.stock run.usage .heading = 2 := by
  obtain ⟨result, hresult, -⟩ := exists_recovered_twoHeadings
  obtain ⟨run, hdressed, -, hcount⟩ := countInUse_recovered hresult
  have hseen : (Stock.ofMarkup twoWrappers (definedFor twoHeadings none)).toOption.map
      (fun stock => (stock.index.ofKind .heading).map Leaf.key) = some ["h1|Hi", "h2|Ho"] := by
    decide +kernel
  have hkeys := run.stock_of_map hseen
  have hnodes : (twoHeadings.nodes.countP
      fun node => (nodeLeaf? node).map Prod.fst = some .heading) = 2 := by
    decide +kernel
  refine ⟨result, hresult, run, hdressed, hkeys, ?_⟩
  rw [hcount, hnodes, ← List.length_map, hkeys]
  rfl

end BlockTheme.Recovery
