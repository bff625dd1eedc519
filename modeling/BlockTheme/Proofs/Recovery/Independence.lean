import BlockTheme.Proofs.Recovery.Consumption
import BlockTheme.Proofs.Recovery.Frame
import BlockTheme.Proofs.Recovery.Selectors
import Mathlib.Data.List.Forall2

/-!
# What the assignment of leaves depends on

Seen from one kind of leaf, a run is a run over two lists of keys: those of the nodes and those of the
leaves of this kind. `placesFor` is that run, on keys alone, and `isAt_of_assign` says that every run
over a stock gives the keyed nodes of the kind the leaves at these places. So two runs that agree in
both lists agree in the places, whatever else there is in the documents, in the markups and in the
stylesheets (`leaves_depend_on_keys`); and since a larger stylesheet changes no key, it takes no class
from a leaf node.
-/

namespace BlockTheme.Recovery

/-! ## Places for keys -/

/-- The place that a key gets in a row of keys: the first free one with this key, or else the first
free one. -/
def placeFor (row : List String) (taken : List Nat) (key : String) : Option Nat :=
  let free := row.zipIdx.filter fun spot => spot.2 ∉ taken
  ((free.find? fun spot => spot.1 = key).or free.head?).map Prod.snd

/-- The places that keys get one after the other. -/
def placesFor (row : List String) (taken : List Nat) : List String → List (Option Nat)
  | [] => []
  | key :: rest =>
    placeFor row taken key :: placesFor row ((placeFor row taken key).toList ++ taken) rest

/-- A grant is the leaf at a place of a bucket, or without a place nothing. -/
inductive Grant.IsAt (bucket : List Leaf) : Option Nat → Grant → Prop
  | nothing : IsAt bucket none .nothing
  | leaf {place : Nat} {found : Leaf} (h : bucket[place]? = some found) :
      IsAt bucket (some place) (.leaf found)

/-- The taken places of a bucket are those of its leaves that are in use. -/
def Taken (bucket : List Leaf) (used taken : List Nat) : Prop :=
  ∀ (place : Nat) (leaf : Leaf), bucket[place]? = some leaf → (place ∈ taken ↔ leaf.id ∈ used)

section Taken

variable {bucket : List Leaf} {used taken : List Nat}

/-- At the beginning nothing is taken out of a bucket. -/
theorem taken_nil (bucket : List Leaf) : Taken bucket [] [] := by
  intro place leaf _
  simp

/-- A leaf of the bucket and its place are taken together. Places and numbers go hand in hand
because no two leaves of a bucket have the same number. -/
theorem Taken.cons (h : Taken bucket used taken) (hids : (bucket.map Leaf.id).Nodup) {place : Nat}
    {found : Leaf} (hplace : bucket[place]? = some found) :
    Taken bucket (found.id :: used) (place :: taken) := by
  intro other leaf hleaf
  have hlength : other < (bucket.map Leaf.id).length := by
    obtain ⟨hlt, -⟩ := List.getElem?_eq_some_iff.1 hleaf
    rwa [List.length_map]
  have hsame : other = place ↔ leaf.id = found.id := by
    constructor
    · rintro rfl
      rw [Option.some.inj (hleaf.symm.trans hplace)]
    · intro hid
      refine (List.getElem?_inj hlength hids).1 ?_
      rw [List.getElem?_map, List.getElem?_map, hleaf, hplace, Option.map_some, Option.map_some, hid]
  rw [List.mem_cons, List.mem_cons, hsame, h other leaf hleaf]

/-- A leaf from elsewhere takes no place of the bucket. -/
theorem Taken.cons_of_forall_ne (h : Taken bucket used taken) {id : Nat}
    (hne : ∀ leaf ∈ bucket, leaf.id ≠ id) : Taken bucket (id :: used) taken := by
  intro place leaf hleaf
  have hother := hne leaf (List.mem_of_getElem? hleaf)
  rw [h place leaf hleaf, List.mem_cons]
  simp [hother]

end Taken

/-- **A search for a key is a choice of a place by keys alone.** Neither classes nor leaves of other
kinds come into it, so that it can be compared between runs with different stocks. -/
theorem LeafIndex.exists_spot {index : LeafIndex} (hs : index.Sound) {used taken : List Nat}
    {kind : LeafKind} {key : String} (hkey : LeafKind.ofKey? key = some kind)
    (h : Taken (index.ofKind kind) used taken) :
    ∃ spot : Option (Leaf × Nat), index.find? used key (some kind) = spot.map Prod.fst
      ∧ placeFor ((index.ofKind kind).map Leaf.key) taken key = spot.map Prod.snd
      ∧ ∀ {leaf : Leaf} {place : Nat}, spot = some (leaf, place) →
        (index.ofKind kind)[place]? = some leaf := by
  -- the leaves of the bucket that are left, with their places in it
  let spots := (index.ofKind kind).zipIdx.filter fun spot => spot.2 ∉ taken
  have hleaves : index.free used kind = spots.map Prod.fst := by
    have hbucket := List.zipIdx_map_fst 0 (index.ofKind kind)
    rw [LeafIndex.free]
    nth_rewrite 1 [← hbucket]
    rw [List.filter_map]
    refine congrArg (List.map Prod.fst) (List.filter_congr fun spot hspot => ?_)
    have htaken := h spot.2 spot.1 (List.mem_zipIdx_iff_getElem?.1 hspot)
    simp [htaken]
  have hkeys : ((index.ofKind kind).map Leaf.key).zipIdx.filter (fun spot => spot.2 ∉ taken)
      = spots.map (Prod.map Leaf.key id) := by
    rw [List.zipIdx_map, List.filter_map]
    rfl
  -- both searches look for the first spot with the key, or else take the first spot
  refine ⟨(spots.find? fun spot => spot.1.key = key).or spots.head?, ?_, ?_, ?_⟩
  · rw [LeafIndex.find?_eq_free hs used hkey, hleaves, List.find?_map, List.head?_map,
      Option.map_or]
    rfl
  · rw [placeFor, hkeys, List.find?_map, List.head?_map, ← Option.map_or, Option.map_map]
    rfl
  · intro leaf place hspot
    have hmem : (leaf, place) ∈ spots := by
      rcases Option.or_eq_some_iff.1 hspot with hexact | ⟨-, hfallback⟩
      · exact List.mem_of_find?_eq_some hexact
      · exact List.mem_of_head? hfallback
    exact List.mem_zipIdx_iff_getElem?.1 (List.mem_filter.1 hmem).1

/-! ## Runs seen from one kind -/

section Projection

variable {stock : Stock} {thresholds : Thresholds} {kind : LeafKind} {usage : Usage}
  {request : Request} {grant : Grant} {taken : List Nat}

/-- A request has a key of a kind if it is one for a leaf of the kind. -/
theorem keyOf?_eq_some {key : String} :
    request.keyOf? kind = some key ↔ request = .leaf kind key := by
  cases request with
  | nothing => simp [Request.keyOf?]
  | container keys => simp [Request.keyOf?]
  | leaf asked other =>
    by_cases hasked : asked = kind <;> simp [Request.keyOf?, hasked]

/-- **An answer to a request for a leaf of the kind is the leaf at the place that its key gets.**
The step that `isAt_of_assign` is the induction over. -/
theorem Answers.isAt (hs : stock.Sound) {key : String} (hkey : LeafKind.ofKey? key = some kind)
    (h : Answers stock thresholds usage (.leaf kind key) grant)
    (htaken : Taken (stock.index.ofKind kind) usage.leaves taken) :
    grant.IsAt (stock.index.ofKind kind)
        (placeFor ((stock.index.ofKind kind).map Leaf.key) taken key)
      ∧ Taken (stock.index.ofKind kind) (usage.take grant).leaves
        ((placeFor ((stock.index.ofKind kind).map Leaf.key) taken key).toList ++ taken) := by
  -- the search by key and the place that the keys say are found together
  obtain ⟨spot, hfind, hplace, hspot⟩ := LeafIndex.exists_spot hs.index hkey htaken
  rw [hplace]
  cases spot with
  | none =>
    cases h with
    | noLeaf _ => exact ⟨.nothing, htaken⟩
    | leaf hsome => exact absurd (hsome.symm.trans hfind) (by simp)
  | some spot =>
    obtain ⟨leaf, place⟩ := spot
    have hat := hspot rfl
    cases h with
    | noLeaf hnone => exact absurd (hnone.symm.trans hfind) (by simp)
    | leaf hsome =>
      obtain rfl := Option.some.inj (hsome.symm.trans hfind)
      exact ⟨.leaf hat, htaken.cons (hs.index.nodup_ids_ofKind kind) hat⟩

/-- An answer to any other request takes no leaf of the kind: a container is no leaf, and a leaf
that is found by a key has the kind of that key. -/
theorem Answers.taken_of_keyOf?_eq_none (hs : stock.Sound) (htells : request.TellsKind)
    (h : Answers stock thresholds usage request grant) (hrequest : request.keyOf? kind = none)
    (htaken : Taken (stock.index.ofKind kind) usage.leaves taken) :
    Taken (stock.index.ofKind kind) (usage.take grant).leaves taken := by
  cases h with
  | nothing => exact htaken
  | noLeaf _ => exact htaken
  | noContainer _ => exact htaken
  | container _ => exact htaken
  | @leaf asked key found hfind =>
    obtain ⟨hin, hfound⟩ := LeafIndex.find?_eq_some hs.index (htells rfl) hfind
    refine htaken.cons_of_forall_ne fun leaf hleaf hid => ?_
    -- a number belongs to one leaf, and that one is of the kind that was asked for
    obtain ⟨hmem, hown⟩ := hs.index.mem_ofKind.1 hleaf
    obtain rfl := hs.index.eq_of_id_eq hmem hin hid
    have hsome : (Request.leaf asked key).keyOf? kind = some key :=
      keyOf?_eq_some.2 (by rw [← hfound, hown])
    exact absurd (hrequest.symm.trans hsome) (by simp)

/-- **A run grants the requests for leaves of a kind the leaves at the places that their keys get.**
These places depend on the keys that were asked for before and on nothing else. -/
theorem isAt_of_assign (hs : stock.Sound) {requests : List Request}
    (htells : ∀ request ∈ requests, request.TellsKind)
    (htaken : Taken (stock.index.ofKind kind) usage.leaves taken) {grants : List Grant}
    (h : assign stock thresholds usage requests = .ok grants) :
    List.Forall₂ (fun place i => (grantAt grants i).IsAt (stock.index.ofKind kind) place)
      (placesFor ((stock.index.ofKind kind).map Leaf.key) taken (keysAsked kind requests))
      (requests.findIdxs fun request => (request.keyOf? kind).isSome) := by
  -- on the requests: one that names another kind leaves the places of this kind alone, and one of
  -- this kind takes the place that the keys say
  induction requests generalizing usage taken grants with
  | nil => exact .nil
  | cons request rest ih =>
    obtain ⟨hrequest, hrest⟩ := List.forall_mem_cons.1 htells
    obtain ⟨grant, more, rfl, hanswers, hmore⟩ := assign_cons_eq_ok.1 h
    rw [keysAsked_cons, List.findIdxs_cons, List.findIdxs_start]
    cases hkey : request.keyOf? kind with
    | none =>
      have hnext := hanswers.taken_of_keyOf?_eq_none hs hrequest hkey htaken
      rw [Option.toList_none, List.nil_append, if_neg (by simp), List.forall₂_map_right_iff]
      exact ih hrest hnext hmore
    | some key =>
      obtain rfl := keyOf?_eq_some.1 hkey
      obtain ⟨hat, hnext⟩ := hanswers.isAt hs (hrequest rfl) htaken
      rw [Option.toList_some, List.singleton_append, placesFor, if_pos (by simp)]
      refine .cons hat ?_
      rw [List.forall₂_map_right_iff]
      exact ih hrest hnext hmore

end Projection

/-! ## Two runs -/

/-- The key of a target, if it is a keyed leaf node of a kind. -/
def Target.keyOf? (kind : LeafKind) : Target → Option String
  | .region _ => none
  | .node n => nodeKeyOf? kind n

/-- The places of the keyed leaf nodes of a kind in the walk, in its order. -/
def keyedPlaces (kind : LeafKind) (document : Document) : List Nat :=
  document.walk.findIdxs fun target => (target.keyOf? kind).isSome

theorem keyOf?_request (kind : LeafKind) (target : Target) :
    target.request.keyOf? kind = target.keyOf? kind := by
  cases target with
  | region s => exact keyOf?_ofKeys kind _
  | node n => exact keyOf?_ofNode kind n

/-- The places of the requests for a kind are those of the keyed nodes of this kind. -/
theorem findIdxs_targets (kind : LeafKind) (document : Document) :
    (targets document).findIdxs (fun request => (request.keyOf? kind).isSome)
      = keyedPlaces kind document := by
  rw [targets_eq_map_walk, List.findIdxs_map, keyedPlaces]
  congr 1
  funext target
  rw [Function.comp_apply, keyOf?_request]

/-- Lists that are related to one list are related through its members. -/
theorem forall₂_common {α β γ : Type} {R : α → β → Prop} {S : α → γ → Prop} {common : List α}
    {first : List β} {second : List γ} (h : List.Forall₂ R common first)
    (h' : List.Forall₂ S common second) :
    List.Forall₂ (fun b c => ∃ a, R a b ∧ S a c) first second := by
  induction h generalizing second with
  | nil =>
    cases h'
    exact .nil
  | @cons a _ _ _ hab _ ih =>
    cases h' with
    | cons hac hrest => exact .cons ⟨a, hab, hac⟩ (ih hrest)

/-- Two grants are the leaves at one place of two buckets, or both are nothing. -/
def SamePlace (first second : List Leaf) (a b : Grant) : Prop :=
  ∃ place, a.IsAt first place ∧ b.IsAt second place

section Run

variable {document : Document} {html css : Option String}
  {thresholds : Except Settings.BadThresholds Thresholds}

/-- What a run grants to the keyed nodes of a kind, by the keys alone. -/
theorem Run.isAt (run : Run document html css thresholds) (kind : LeafKind) :
    List.Forall₂ (fun place i => (grantAt run.grants i).IsAt (run.stock.index.ofKind kind) place)
      (placesFor ((run.stock.index.ofKind kind).map Leaf.key) []
        (document.nodes.filterMap (nodeKeyOf? kind)))
      (keyedPlaces kind document) := by
  rw [← keysAsked_targets, ← findIdxs_targets]
  exact isAt_of_assign (Stock.sound_ofMarkup run.stock_eq) (fun _ => tellsKind_of_mem_targets)
    (taken_nil _) run.grants_eq

/-- Two runs over documents and markups with the same keys of a kind grant the same places. Each run
takes the places that `placesFor` computes from keys alone, and the keys are the same. -/
theorem Run.samePlace {document' : Document} {html' css' : Option String}
    {thresholds' : Except Settings.BadThresholds Thresholds}
    (run : Run document html css thresholds) (run' : Run document' html' css' thresholds')
    {kind : LeafKind}
    (hnodes : document.nodes.filterMap (nodeKeyOf? kind)
      = document'.nodes.filterMap (nodeKeyOf? kind))
    (hleaves : (run.stock.index.ofKind kind).map Leaf.key
      = (run'.stock.index.ofKind kind).map Leaf.key) :
    List.Forall₂
      (fun i j => SamePlace (run.stock.index.ofKind kind) (run'.stock.index.ofKind kind)
        (grantAt run.grants i) (grantAt run'.grants j))
      (keyedPlaces kind document) (keyedPlaces kind document') := by
  have hrun' := run'.isAt kind
  rw [← hnodes, ← hleaves] at hrun'
  exact forall₂_common (run.isAt kind) hrun'

end Run

/-! ## Larger stylesheets -/

/-- A larger stylesheet gives a leaf more classes, if anything. -/
theorem LeafIndex.classesOf_subset {defined defined' : List String} (h : defined ⊆ defined')
    (tag : Html.Tag) : classesOf defined tag ⊆ classesOf defined' tag := by
  intro name hname
  rw [classesOf, qualifying, Text.mem_distinct, List.mem_filter, List.contains_iff_mem] at hname ⊢
  exact ⟨hname.1, h hname.2⟩

/-- The bucket of a kind is the keyed elements of this kind, which no stylesheet decides on. -/
theorem LeafIndex.ofKind_ofTags (tags : List Html.Tag) (defined : List String) (kind : LeafKind) :
    (ofTags tags defined).ofKind kind
      = ((tags.filterMap keyedTag?).zipIdx.filter fun spot => spot.1.1 = kind).map
          (leafOf defined) := by
  rw [(sound_ofTags tags defined).ofKind_eq, leaves_ofTags, List.filter_map]
  rfl

/-- With more classes defined, what stands at a place of a bucket has all the classes that it had.
The places are the same, since keys do not depend on the stylesheet. -/
theorem SamePlace.classes_subset {tags : List Html.Tag} {defined defined' : List String}
    (hdefined : defined ⊆ defined') {kind : LeafKind} {a b : Grant}
    (h : SamePlace ((LeafIndex.ofTags tags defined).ofKind kind)
      ((LeafIndex.ofTags tags defined').ofKind kind) a b) : a.classes ⊆ b.classes := by
  obtain ⟨place, ha, hb⟩ := h
  cases ha with
  | nothing =>
    cases hb
    exact List.Subset.refl _
  | leaf hfound =>
    cases hb with
    | leaf hfound' =>
      rw [LeafIndex.ofKind_ofTags, List.getElem?_map, Option.map_eq_some_iff] at hfound hfound'
      obtain ⟨spot, hspot, rfl⟩ := hfound
      obtain ⟨spot', hspot', rfl⟩ := hfound'
      obtain rfl := Option.some.inj (hspot.symm.trans hspot')
      exact LeafIndex.classesOf_subset hdefined _

section Larger

variable {document : Document} {html css css' : Option String}
  {thresholds thresholds' : Except Settings.BadThresholds Thresholds}

/-- A leaf node keeps the classes that it is granted when more of them are defined. Both runs grant
it the leaf at one place, by `Run.samePlace`. -/
theorem Run.classes_subset (run : Run document html css thresholds)
    (run' : Run document html css' thresholds')
    (hdefined : definedFor document css ⊆ definedFor document css') {place : Nat} {node : Node}
    (hnode : document.walk[place]? = some (.node node)) (hleaf : (nodeLeaf? node).isSome) :
    (grantAt run.grants place).classes ⊆ (grantAt run'.grants place).classes := by
  obtain ⟨⟨kind, key⟩, hkey⟩ := Option.isSome_iff_exists.1 hleaf
  -- both runs have read the same elements
  obtain ⟨trees, hparse, hstock⟩ := Stock.ofMarkup_eq_ok.1 run.stock_eq
  obtain ⟨trees', hparse', hstock'⟩ := Stock.ofMarkup_eq_ok.1 run'.stock_eq
  obtain rfl := Except.ok.inj (hparse.symm.trans hparse')
  have hkeys : (run.stock.index.ofKind kind).map Leaf.key
      = (run'.stock.index.ofKind kind).map Leaf.key := by
    rw [hstock, hstock', LeafIndex.ofKind_ofTags, LeafIndex.ofKind_ofTags, List.map_map, List.map_map]
    rfl
  have hplace : place ∈ keyedPlaces kind document := by
    obtain ⟨hlt, htarget⟩ := List.getElem?_eq_some_iff.1 hnode
    refine List.mem_findIdxs_iff_exists_getElem_pos.2 ⟨hlt, ?_⟩
    rw [htarget, Target.keyOf?, nodeKeyOf?, hkey]
    simp
  have hsame := List.forall₂_same.1 (run.samePlace run' rfl hkeys) place hplace
  rw [hstock, hstock'] at hsame
  exact hsame.classes_subset hdefined

/-- Whether a run completes does not depend on the stylesheet. Only the numbers of keys that are
asked for matter, and they come from the document. -/
theorem Run.nonempty_of_css (run : Run document html css thresholds) (css' : Option String) :
    Nonempty (Run document html css' thresholds) := by
  obtain ⟨trees, hparse, -⟩ := Stock.ofMarkup_eq_ok.1 run.stock_eq
  let defined := definedFor document css'
  let stock : Stock := ⟨LeafIndex.ofTags (Html.tagsOf trees) defined,
    Container.ofTags (Html.tagsOf trees) defined⟩
  have hnumbers : ∀ keys, Request.container keys ∈ targets document →
      ∃ required, run.limits.required (Text.distinct keys).length = .ok required := by
    intro keys hmem
    have hne : keys ≠ [] := by
      rw [targets_eq_map_walk, List.mem_map] at hmem
      obtain ⟨target, -, hrequest⟩ := hmem
      exact (request_eq_container_iff.1 hrequest).2.2
    exact exists_required_of_assign run.grants_eq hmem hne
  obtain ⟨grants, hgrants⟩ := @exists_assign stock run.limits {} _ hnumbers
  exact ⟨⟨stock, run.limits, grants, Stock.ofMarkup_eq_ok.2 ⟨trees, hparse, rfl⟩, run.limits_eq,
    hgrants⟩⟩

/-- A stylesheet that defines a class is enough of one: a blank one defines none. So a recovery that
is made with the smaller stylesheet is made with the larger one. -/
theorem not_nothingToRecover (hnothing : ¬NothingToRecover document html css)
    (hdefined : definedFor document css ⊆ definedFor document css') :
    ¬NothingToRecover document html css' := by
  have hfirst : definedFor document css ≠ [] := fun hnil => hnothing (Or.inr (Or.inr hnil))
  have hsecond : definedFor document css' ≠ [] := by
    intro hnil
    rw [hnil] at hdefined
    exact hfirst (List.subset_nil.1 hdefined)
  rintro (hhtml | hsheet | hnone)
  · exact hnothing (Or.inl hhtml)
  · refine hsecond ?_
    rw [definedFor, hsheet]
    rfl
  · exact hsecond hnone

end Larger

/-- **The assignment of leaves depends on fingerprints only.** If two documents have the same keys of
a kind, in the order of their walks, and two markups have the same keys of this kind, in document
order, then the runs grant their nodes of this kind, in turn, the leaves at the same places of the
bucket of the kind, or both nothing. So a recovery with a larger stylesheet ends well like the one with
the smaller stylesheet, and takes no class from the class name of a leaf node. -/
theorem leaves_depend_on_keys :
    (∀ {document document' : Document} {html html' css css' : Option String}
      {thresholds thresholds' : Except Settings.BadThresholds Thresholds}
      (run : Run document html css thresholds) (run' : Run document' html' css' thresholds')
      {kind : LeafKind},
      document.nodes.filterMap (nodeKeyOf? kind) = document'.nodes.filterMap (nodeKeyOf? kind) →
      (run.stock.index.ofKind kind).map Leaf.key = (run'.stock.index.ofKind kind).map Leaf.key →
      List.Forall₂
        (fun i j => SamePlace (run.stock.index.ofKind kind) (run'.stock.index.ofKind kind)
          (grantAt run.grants i) (grantAt run'.grants j))
        (keyedPlaces kind document) (keyedPlaces kind document'))
    ∧ ∀ {document : Document} {html css css' : Option String}
      {thresholds : Except Settings.BadThresholds Thresholds} {result : Document},
      definedFor document css ⊆ definedFor document css' →
      Convert.recovered? thresholds document html css = .ok (some result) →
      ∃ result', Convert.recovered? thresholds document html css' = .ok (some result')
        ∧ ∀ {place : Nat} {node : Node},
          document.walk[place]? = some (.node node) → (nodeLeaf? node).isSome →
          ∃ new new', result.walk[place]? = some new ∧ result'.walk[place]? = some new'
            ∧ ∀ name ∈ Text.wordsOf (new.className.getD ""),
              name ∈ Text.wordsOf (new'.className.getD "") := by
  constructor
  · intro document document' html html' css css' thresholds thresholds' run run' kind hnodes hleaves
    exact run.samePlace run' hnodes hleaves
  -- the wider stylesheet gives every leaf the classes that it had and perhaps more
  · intro document html css css' thresholds result hdefined h
    obtain ⟨hsomething, run, rfl⟩ := exists_run_of_eq_some h
    obtain ⟨run'⟩ := run.nonempty_of_css css'
    refine ⟨dress document run'.grants,
      recovered?_eq_ok.2 (Or.inr ⟨not_nothingToRecover hsomething hdefined, run', rfl⟩), ?_⟩
    intro place node hnode hleaf
    obtain ⟨new, hnew, -, hclasses⟩ := getElem?_walk_dress run.grants hnode
    obtain ⟨new', hnew', -, hclasses'⟩ := getElem?_walk_dress run'.grants hnode
    refine ⟨new, new', hnew, hnew', fun name hname => ?_⟩
    rw [hclasses, Grant.dress, mem_wordsOf_mergeClassName run.isWord_of_mem_classes] at hname
    rw [hclasses', Grant.dress, mem_wordsOf_mergeClassName run'.isWord_of_mem_classes]
    rcases hname with hold | hadded
    · exact Or.inl hold
    · exact Or.inr (run.classes_subset run' hdefined hnode hleaf hadded)

/-- Markup with the headings of the two wrappers, but with other things around them. -/
def looseHeadings : String :=
  "<p class=_>Ho</p><h1 class='__ _'>Hi</h1><section class=_><p>Ho</p><h2>Ho</h2></section>"

theorem exists_recovered_looseHeadings :
    ∃ result, Convert.recovered? (.ok {}) nestedGroups (some looseHeadings) none = .ok (some result)
      ∧ result.walk.map Target.className
        = [some "_", none, some "_", some "_", none, none, none] := by
  have hnames : (Convert.recovered? (.ok {}) nestedGroups (some looseHeadings) none).toOption.map
      (fun found => found.map fun result => result.walk.map Target.className)
        = some (some [some "_", none, some "_", some "_", none, none, none]) := by
    decide +kernel
  exact exists_recovered_of_map hnames

/-- The stylesheet of the page and one that defines a class more. -/
theorem definedFor_subset_wider :
    definedFor nestedGroups none ⊆ definedFor nestedGroups (some "._ .__") := by
  have hown : definedFor nestedGroups none = ["_"] := by decide +kernel
  have hblank : isClassChar ' ' = false := not_isClassChar_of_isBlank (by decide)
  have hword : isClassChar '_' = true := by decide +kernel
  have hfirst : ['_'] ∈ selectorsIn "._ .__".toList := by
    show ['_'] ∈ ('_' :: ' ' :: ".__".toList).takeWhile isClassChar :: _
    rw [List.takeWhile_cons_of_pos hword, List.takeWhile_cons_of_neg (by simp [hblank])]
    exact List.mem_cons_self
  intro name hname
  rw [hown, List.mem_singleton] at hname
  subst hname
  exact Text.mem_distinct.2 (List.mem_map.2 ⟨['_'], hfirst, rfl⟩)

/-- The page with two headings and the one with nested groups have the same headings, and so have their
markups: the headings get the same places. And with one more class defined, the first heading of the
page with nested groups keeps the class that it was given. -/
theorem leaves_depend_on_keys_twoHeadings :
    (∃ (run : Run twoHeadings (some twoWrappers) none (.ok {}))
      (run' : Run nestedGroups (some looseHeadings) none (.ok {})),
      keyedPlaces .heading twoHeadings = [1, 3] ∧ keyedPlaces .heading nestedGroups = [2, 6]
        ∧ List.Forall₂
          (fun i j => SamePlace (run.stock.index.ofKind .heading) (run'.stock.index.ofKind .heading)
            (grantAt run.grants i) (grantAt run'.grants j))
          (keyedPlaces .heading twoHeadings) (keyedPlaces .heading nestedGroups))
    ∧ ∃ result result',
      Convert.recovered? (.ok {}) nestedGroups (some looseHeadings) none = .ok (some result)
        ∧ Convert.recovered? (.ok {}) nestedGroups (some looseHeadings) (some "._ .__")
          = .ok (some result')
        ∧ ∃ new', result'.walk[2]? = some new' ∧ "_" ∈ Text.wordsOf (new'.className.getD "") := by
  obtain ⟨loose, hloose, hnames⟩ := exists_recovered_looseHeadings
  constructor
  · obtain ⟨two, htwo, -⟩ := exists_recovered_twoHeadings
    obtain ⟨-, run, -⟩ := exists_run_of_eq_some htwo
    obtain ⟨-, run', -⟩ := exists_run_of_eq_some hloose
    -- both markups have the same two headings, in elements of their own in the second one
    have hseen : (Stock.ofMarkup twoWrappers (definedFor twoHeadings none)).toOption.map
        (fun stock => (stock.index.ofKind .heading).map Leaf.key) = some ["h1|Hi", "h2|Ho"] := by
      decide +kernel
    have hseen' : (Stock.ofMarkup looseHeadings (definedFor nestedGroups none)).toOption.map
        (fun stock => (stock.index.ofKind .heading).map Leaf.key) = some ["h1|Hi", "h2|Ho"] := by
      decide +kernel
    have hkeys := (run.stock_of_map hseen).trans (run'.stock_of_map hseen').symm
    exact ⟨run, run', by decide +kernel, by decide +kernel,
      leaves_depend_on_keys.1 run run' (by decide +kernel) hkeys⟩
  · obtain ⟨result', hresult', hkept⟩ :=
      @leaves_depend_on_keys.2 nestedGroups (some looseHeadings) none (some "._ .__") (.ok {}) loose
        definedFor_subset_wider hloose
    -- with the wider stylesheet the first heading keeps its class
    have hnode : nestedGroups.walk[2]? = some (.node (headingNode "Hi" none)) := rfl
    obtain ⟨new, new', hnew, hnew', hwords⟩ := hkept hnode (by decide +kernel)
    have hname : new.className = some "_" := by
      have hat := congrArg (fun names => names[2]?) hnames
      rw [List.getElem?_map, hnew] at hat
      exact Option.some.inj hat
    refine ⟨loose, result', hloose, hresult', new', hnew', hwords "_" ?_⟩
    rw [hname]
    decide +kernel

end BlockTheme.Recovery
