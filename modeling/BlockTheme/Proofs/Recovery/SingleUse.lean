import BlockTheme.Proofs.Recovery.Outcome

/-!
# Single use

A completed recovery is a `Matching`: two partial maps from the places of the walk, one to the
leaves of the markup and one to its containers. Both are injective by construction, a leaf goes to
a node of its kind and a container to a section or a group that shares enough keys with it.
`Matching.ofRun` makes a run into one that records all its grants, and `recovered_matching` says that
the class names of the result are those that the matching makes of the old ones.
-/

namespace BlockTheme.Recovery

/-! ## Matchings -/

/-- What the targets of a document get out of a stock, by the place of the target in the walk and
the place of what it gets in the stock. -/
structure Matching (document : Document) (stock : Stock) (thresholds : Thresholds) where
  leafAt : Nat → Option Nat
  containerAt : Nat → Option Nat
  /-- No leaf goes to two targets. -/
  leafAt_injective : ∀ {i j place : Nat},
    leafAt i = some place → leafAt j = some place → i = j
  /-- No container goes to two targets. -/
  containerAt_injective : ∀ {i j place : Nat},
    containerAt i = some place → containerAt j = some place → i = j
  /-- A leaf goes to a keyed leaf node of its own kind. -/
  kind_eq : ∀ {i place : Nat}, leafAt i = some place →
    ∃ node key leaf, document.walk[i]? = some (.node node) ∧ nodeLeaf? node = some (leaf.kind, key)
      ∧ stock.index.leaves[place]? = some leaf
  /-- A container goes to a section or a group with which it shares as many keys as the thresholds
  ask for, and at least one. -/
  shared : ∀ {i place : Nat}, containerAt i = some place →
    ∃ target c required, document.walk[i]? = some target ∧ target.IsHolder
      ∧ stock.containers[place]? = some c
      ∧ thresholds.required target.keys.toFinset.card = .ok required
      ∧ 1 ≤ required ∧ required ≤ (target.keys.toFinset ∩ c.keys.toFinset).card

namespace Matching

variable {document : Document} {stock : Stock} {thresholds : Thresholds}

/-- The classes of what the target at a place gets. -/
def classesAt (m : Matching document stock thresholds) (i : Nat) : List String :=
  (((m.leafAt i).bind fun place => stock.index.leaves[place]?).map Leaf.classes).getD []
    ++ (((m.containerAt i).bind fun place => stock.containers[place]?).map
      Container.classes).getD []

end Matching

/-- The class name `new` comes from `old` by adding classes: with none it is `old`, and otherwise
it is the words of `old` and then the classes, each once, with single spaces between them. -/
def Extends (old new : Option String) (classes : List String) : Prop :=
  if classes = [] then new = old
  else ∃ names : List String, new = some (" ".intercalate names) ∧ names.Nodup
    ∧ names = (Text.wordsOf (old.getD "") ++ classes).eraseDups

/-! ## Dressing -/

/-- Merging classes into a class name extends it by these: the old words come first, in their order,
and of the new ones those that were not there. -/
theorem extends_mergeClassName (old : Option String) {classes : List String}
    (h : ∀ name ∈ classes, name ≠ "") : Extends old (mergeClassName old classes) classes := by
  unfold Extends mergeClassName
  by_cases hnil : classes = []
  · simp [hnil]
  · have hempty : classes.isEmpty = false := by simpa using hnil
    -- no name is empty, so nothing is filtered out
    have hfilter : (Text.wordsOf (old.getD "") ++ classes).filter (fun name => !name.isEmpty)
        = Text.wordsOf (old.getD "") ++ classes := by
      refine List.filter_eq_self.2 fun name hname => ?_
      have hne : name ≠ "" := by
        rcases List.mem_append.1 hname with hword | hclass
        · exact Text.ne_empty_of_mem_wordsOf hword
        · exact h name hclass
      simpa using hne
    have hmerged : mergedClasses old classes
        = Text.distinct (Text.wordsOf (old.getD "") ++ classes) := by
      rw [mergedClasses, hfilter]
    obtain ⟨name, hname⟩ := List.exists_mem_of_ne_nil classes hnil
    have hmem : name ∈ mergedClasses old classes := by
      rw [hmerged, Text.mem_distinct]
      exact List.mem_append_right _ hname
    rw [if_neg hnil, hempty]
    simp only [Bool.false_eq_true, if_false]
    split
    · next hnone => simp [hnone] at hmem
    · refine ⟨mergedClasses old classes, rfl, ?_, ?_⟩
      · rw [hmerged]
        exact Text.nodup_distinct _
      · rw [hmerged, Text.distinct_eq_eraseDups]

/-! ## From runs to matchings -/

/-- The leaf that is granted, if it is one. -/
def Grant.leaf? : Grant → Option Leaf
  | .leaf found => some found
  | _ => none

/-- The container that is granted, if it is one. -/
def Grant.container? : Grant → Option Container
  | .container found => some found
  | _ => none

theorem Grant.leaf?_eq_some {grant : Grant} {found : Leaf} :
    grant.leaf? = some found ↔ grant = .leaf found := by
  cases grant <;> simp [Grant.leaf?]

theorem Grant.container?_eq_some {grant : Grant} {found : Container} :
    grant.container? = some found ↔ grant = .container found := by
  cases grant <;> simp [Grant.container?]

section Run

variable {document : Document} {stock : Stock} {thresholds : Thresholds} {grants : List Grant}

/-- The number of the leaf that a run grants at a place. -/
def leafIdAt (grants : List Grant) (i : Nat) : Option Nat :=
  ((grants[i]?).bind Grant.leaf?).map Leaf.id

/-- The number of the container that a run grants at a place. -/
def containerIdAt (grants : List Grant) (i : Nat) : Option Nat :=
  ((grants[i]?).bind Grant.container?).map Container.id

/-- The leaf at a place is the one that was granted there. -/
theorem leafIdAt_eq_some {i id : Nat} :
    leafIdAt grants i = some id ↔ ∃ leaf, grants[i]? = some (.leaf leaf) ∧ leaf.id = id := by
  simp [leafIdAt, Option.map_eq_some_iff, Option.bind_eq_some_iff, Grant.leaf?_eq_some]

theorem containerIdAt_eq_some {i id : Nat} :
    containerIdAt grants i = some id ↔ ∃ c, grants[i]? = some (.container c) ∧ c.id = id := by
  simp [containerIdAt, Option.map_eq_some_iff, Option.bind_eq_some_iff, Grant.container?_eq_some]

/-- The target at a place of a run asked for what is granted there. -/
theorem target_of_grant (h : assign stock thresholds {} (targets document) = .ok grants)
    {i : Nat} {grant : Grant} (hgrant : grants[i]? = some grant) :
    ∃ target, document.walk[i]? = some target
      ∧ Answers stock thresholds ((({} : Usage)).takeAll (grants.take i)) target.request grant := by
  obtain ⟨request, hrequest, hanswers⟩ := answers_of_assign h hgrant
  rw [targets_eq_map_walk, List.getElem?_map, Option.map_eq_some_iff] at hrequest
  obtain ⟨target, htarget, rfl⟩ := hrequest
  exact ⟨target, htarget, hanswers⟩

/-- A leaf that is granted stands in the index at its number, and its target is a node of its
kind. -/
theorem leaf_of_grant (hs : stock.Sound)
    (h : assign stock thresholds {} (targets document) = .ok grants) {i : Nat} {leaf : Leaf}
    (hgrant : grants[i]? = some (.leaf leaf)) :
    stock.index.leaves[leaf.id]? = some leaf
      ∧ ∃ node key, document.walk[i]? = some (.node node)
        ∧ nodeLeaf? node = some (leaf.kind, key) := by
  obtain ⟨target, htarget, hanswers⟩ := target_of_grant h hgrant
  generalize hrequest : target.request = request at hanswers
  cases hanswers with
  | @leaf kind key _ hfind =>
    -- by its key or by its kind, the search only finds leaves of the kind of the node
    obtain ⟨node, rfl, hnode⟩ := request_eq_leaf_iff.1 hrequest
    obtain ⟨hmem, hkind⟩ := LeafIndex.find?_eq_some hs.index (ofKey?_nodeLeaf? hnode) hfind
    obtain ⟨place, hplace⟩ := List.getElem?_of_mem hmem
    refine ⟨?_, node, key, htarget, ?_⟩
    · rw [hs.index.id_eq hplace, hplace]
    · rw [hkind, hnode]

/-- A container that is granted stands in the stock at its number, and its target is a section or a
group that shares enough keys with it. -/
theorem container_of_grant (hs : stock.Sound)
    (h : assign stock thresholds {} (targets document) = .ok grants) {i : Nat} {c : Container}
    (hgrant : grants[i]? = some (.container c)) :
    stock.containers[c.id]? = some c
      ∧ ∃ target required, document.walk[i]? = some target ∧ target.IsHolder
        ∧ thresholds.required target.keys.toFinset.card = .ok required
        ∧ 1 ≤ required ∧ required ≤ (target.keys.toFinset ∩ c.keys.toFinset).card := by
  obtain ⟨target, htarget, hanswers⟩ := target_of_grant h hgrant
  -- the grant answers the request of its target, and only a holder asks for a container
  generalize hrequest : target.request = request at hanswers
  cases hanswers with
  | container hfind =>
    obtain ⟨hholder, rfl, -⟩ := request_eq_container_iff.1 hrequest
    obtain ⟨hmem, -, required, hrequired, hshared⟩ := Container.find?_eq_some hfind
    obtain ⟨place, hplace⟩ := List.getElem?_of_mem hmem
    refine ⟨?_, target, required, htarget, hholder, ?_, Thresholds.one_le_of_required hrequired, ?_⟩
    · rw [hs.container_id_eq hplace, hplace]
    · rw [← Container.length_distinct_eq_card, hrequired]
    · rw [← Container.overlap_eq_card]
      exact hshared

/-- **A run is a matching.** -/
def Matching.ofRun (hs : stock.Sound)
    (h : assign stock thresholds {} (targets document) = .ok grants) :
    Matching document stock thresholds where
  leafAt := leafIdAt grants
  containerAt := containerIdAt grants
  leafAt_injective hi hj := by
    obtain ⟨a, ha, hid⟩ := leafIdAt_eq_some.1 hi
    obtain ⟨b, hb, hid'⟩ := leafIdAt_eq_some.1 hj
    exact leaf_place_unique h ha hb (hid.trans hid'.symm)
  containerAt_injective hi hj := by
    obtain ⟨a, ha, hid⟩ := containerIdAt_eq_some.1 hi
    obtain ⟨b, hb, hid'⟩ := containerIdAt_eq_some.1 hj
    exact container_place_unique h ha hb (hid.trans hid'.symm)
  kind_eq hi := by
    obtain ⟨leaf, hgrant, rfl⟩ := leafIdAt_eq_some.1 hi
    obtain ⟨hleaf, node, key, hnode, hkey⟩ := leaf_of_grant hs h hgrant
    exact ⟨node, key, leaf, hnode, hkey, hleaf⟩
  shared hi := by
    obtain ⟨c, hgrant, rfl⟩ := containerIdAt_eq_some.1 hi
    obtain ⟨hc, target, required, htarget, hholder, hrequired, hone, hshared⟩ :=
      container_of_grant hs h hgrant
    exact ⟨target, c, required, htarget, hholder, hc, hrequired, hone, hshared⟩

/-- The matching has the leaf and the container of every grant at the place of the grant, and no
others. -/
structure Matching.Records (m : Matching document stock thresholds) (grants : List Grant) : Prop where
  leaf_iff : ∀ (i : Nat) (leaf : Leaf), grants[i]? = some (.leaf leaf) ↔
    ∃ place, m.leafAt i = some place ∧ stock.index.leaves[place]? = some leaf
  container_iff : ∀ (i : Nat) (c : Container), grants[i]? = some (.container c) ↔
    ∃ place, m.containerAt i = some place ∧ stock.containers[place]? = some c

/-- **The matching of a run records what the run grants.** Leaves and containers at their places,
with classes that extend the class names there. -/
theorem Matching.records_ofRun (hs : stock.Sound)
    (h : assign stock thresholds {} (targets document) = .ok grants) :
    (Matching.ofRun hs h).Records grants where
  leaf_iff i leaf := by
    constructor
    · intro hgrant
      exact ⟨leaf.id, leafIdAt_eq_some.2 ⟨leaf, hgrant, rfl⟩, (leaf_of_grant hs h hgrant).1⟩
    -- a place stands for one leaf, so the granted leaf is this one
    · rintro ⟨place, hplace, hleaf⟩
      obtain ⟨granted, hgrant, rfl⟩ := leafIdAt_eq_some.1 hplace
      obtain rfl := Option.some.inj (hleaf.symm.trans (leaf_of_grant hs h hgrant).1)
      exact hgrant
  container_iff i c := by
    constructor
    · intro hgrant
      exact ⟨c.id, containerIdAt_eq_some.2 ⟨c, hgrant, rfl⟩, (container_of_grant hs h hgrant).1⟩
    · rintro ⟨place, hplace, hc⟩
      obtain ⟨granted, hgrant, rfl⟩ := containerIdAt_eq_some.1 hplace
      obtain rfl := Option.some.inj (hc.symm.trans (container_of_grant hs h hgrant).1)
      exact hgrant

/-- The matching of a run gives every target the classes of its grant. A grant is a leaf, a
container or nothing, and the matching holds the places of the first two. -/
theorem classesAt_ofRun (hs : stock.Sound)
    (h : assign stock thresholds {} (targets document) = .ok grants) (i : Nat) :
    (Matching.ofRun hs h).classesAt i = (grantAt grants i).classes := by
  unfold Matching.classesAt grantAt
  show (((leafIdAt grants i).bind _).map _).getD []
    ++ (((containerIdAt grants i).bind _).map _).getD [] = _
  cases hgrant : grants[i]? with
  | none => simp [leafIdAt, containerIdAt, hgrant, Grant.classes]
  | some grant =>
    cases grant with
    | nothing =>
      simp [leafIdAt, containerIdAt, hgrant, Grant.leaf?, Grant.container?, Grant.classes]
    | leaf leaf =>
      have hleaf := (leaf_of_grant hs h hgrant).1
      simp [leafIdAt, containerIdAt, hgrant, Grant.leaf?, Grant.container?, Grant.classes, hleaf]
    | container c =>
      have hc := (container_of_grant hs h hgrant).1
      simp [leafIdAt, containerIdAt, hgrant, Grant.leaf?, Grant.container?, Grant.classes, hc]

/-- What is granted at any place are words, and so no empty names. Merging them into a class name
therefore adds each as a word of its own. -/
theorem ne_empty_of_mem_classes_grantAt (hs : stock.Sound)
    (h : assign stock thresholds {} (targets document) = .ok grants) {i : Nat} :
    ∀ name ∈ (grantAt grants i).classes, name ≠ "" := by
  intro name hname
  unfold grantAt at hname
  cases hgrant : grants[i]? with
  | none => simp [hgrant, Grant.classes] at hname
  | some grant =>
    rw [hgrant] at hname
    cases grant with
    | nothing => simp [Grant.classes] at hname
    | leaf leaf =>
      have hleaf := (leaf_of_grant hs h hgrant).1
      exact hs.ne_empty_of_mem_classes (List.mem_of_getElem? hleaf) hname
    | container c =>
      have hc := (container_of_grant hs h hgrant).1
      exact (hs.wellFormed (List.mem_of_getElem? hc)).ne_empty_of_mem_classes hname

end Run

/-! ## Recovered documents -/

/-- `result` is `document` with the class names that a matching makes of the old ones. -/
def Matching.Yields {document : Document} {stock : Stock} {thresholds : Thresholds}
    (m : Matching document stock thresholds) (result : Document) : Prop :=
  result.unnamed = document.unnamed
    ∧ ∀ {i : Nat} {target : Target}, document.walk[i]? = some target →
      ∃ target', result.walk[i]? = some target' ∧ target'.unnamed = target.unnamed
        ∧ Extends target.className target'.className (m.classesAt i)

def Matching.empty (document : Document) (stock : Stock) (thresholds : Thresholds) :
    Matching document stock thresholds where
  leafAt _ := none
  containerAt _ := none
  leafAt_injective h := by simp at h
  containerAt_injective h := by simp at h
  kind_eq h := by simp at h
  shared h := by simp at h

/-- Where nothing is matched the document stays as it is. -/
theorem Matching.yields_empty (document : Document) (stock : Stock) (thresholds : Thresholds) :
    (Matching.empty document stock thresholds).Yields document :=
  ⟨rfl, fun {_ target} h => ⟨target, h, rfl, by simp [Extends, classesAt, empty]⟩⟩

/-- Dressing a document with the grants of a run yields what the matching of the run says. -/
theorem Matching.yields_dress {document : Document} {stock : Stock} {thresholds : Thresholds}
    {grants : List Grant} (hs : stock.Sound)
    (h : assign stock thresholds {} (targets document) = .ok grants) :
    (Matching.ofRun hs h).Yields (dress document grants) := by
  refine ⟨unnamed_dress document grants, fun {i target} htarget => ?_⟩
  obtain ⟨dressed, hdressed, hsame, hname⟩ := getElem?_walk_dress grants htarget
  refine ⟨dressed, hdressed, hsame, ?_⟩
  rw [hname, classesAt_ofRun]
  exact extends_mergeClassName _ (ne_empty_of_mem_classes_grantAt hs h)

/-- The thresholds give a number of keys for every section and every group of a document that has
keys. -/
def Thresholds.CountFor (thresholds : Thresholds) (document : Document) : Prop :=
  ∀ target ∈ document.walk, target.IsHolder → target.keys ≠ [] →
    ∃ required, thresholds.required target.keys.toFinset.card = .ok required

/-- A run over a document succeeds if the thresholds give numbers for it. -/
theorem Thresholds.CountFor.exists_assign {thresholds : Thresholds} {document : Document}
    (h : thresholds.CountFor document) (stock : Stock) :
    ∃ grants, assign stock thresholds {} (targets document) = .ok grants := by
  refine Recovery.exists_assign {} fun keys hkeys => ?_
  rw [targets_eq_map_walk] at hkeys
  obtain ⟨target, htarget, hrequest⟩ := List.mem_map.1 hkeys
  obtain ⟨hholder, rfl, hne⟩ := request_eq_container_iff.1 hrequest
  rw [Container.length_distinct_eq_card]
  exact h target htarget hholder hne

/-- With a class defined, recovery passes a document by only for want of markup. -/
theorem html_eq_of_nothing {document : Document} {html css : Option String}
    (hdefined : definedFor document css ≠ []) (h : NothingToRecover document html css) :
    html.getD "" = "" := by
  rcases h with hhtml | hsheet | hnone
  · exact hhtml
  · refine absurd ?_ hdefined
    rw [definedFor, hsheet]
    rfl
  · exact absurd hnone hdefined

/-- **A completed recovery is a matching of single use.** With a stylesheet that defines a class,
recovery completes on every markup that can be parsed if the thresholds give the numbers of keys
that it asks for; and whenever it completes, the class names of the result are those of a matching
between the targets of the document and the stock of the markup. What a run grants, with classes or
without, is what stands in the matching. -/
theorem recovered_matching (document : Document) (html css : Option String)
    (thresholds : Thresholds)
    (hdefined : definedClasses ((Convert.stylesheet document css).getD "") ≠ []) :
    (∀ stock, Stock.ofMarkup (html.getD "")
        (definedClasses ((Convert.stylesheet document css).getD "")) = .ok stock →
      thresholds.CountFor document →
      ∃ found, Convert.recovered? (.ok thresholds) document html css = .ok found)
    ∧ ∀ found, Convert.recovered? (.ok thresholds) document html css = .ok found →
      ∃ stock, Stock.ofMarkup (html.getD "")
          (definedClasses ((Convert.stylesheet document css).getD "")) = .ok stock
        ∧ ∃ m : Matching document stock thresholds, m.Yields (found.getD document)
          ∧ ∀ result, found = some result → ∃ grants,
            assign stock thresholds {} (targets document) = .ok grants
              ∧ result = dress document grants ∧ m.Records grants := by
  constructor
  · intro stock hstock hcount
    by_cases hnothing : NothingToRecover document html css
    · exact ⟨none, recovered?_eq_ok.2 (.inl ⟨hnothing, rfl⟩)⟩
    · obtain ⟨grants, hgrants⟩ := hcount.exists_assign stock
      exact ⟨_, recovered?_eq_ok.2
        (.inr ⟨hnothing, ⟨stock, thresholds, grants, hstock, rfl, hgrants⟩, rfl⟩)⟩
  · intro found hfound
    rcases recovered?_eq_ok.1 hfound with ⟨hnothing, rfl⟩ | ⟨-, run, rfl⟩
    · -- nothing is recovered from an empty markup, as from one without elements
      rw [html_eq_of_nothing hdefined hnothing]
      exact ⟨_, rfl, Matching.empty _ _ _, Matching.yields_empty _ _ _, fun _ h => by cases h⟩
    -- the matching is read off the grants of the run
    · obtain ⟨stock, limits, grants, hstock, hlimits, hgrants⟩ := run
      obtain rfl := Except.ok.inj hlimits
      have hs := Stock.sound_ofMarkup hstock
      refine ⟨stock, hstock, Matching.ofRun hs hgrants, Matching.yields_dress hs hgrants, ?_⟩
      intro result hresult
      exact ⟨grants, hgrants, (Option.some.inj hresult).symm, Matching.records_ofRun hs hgrants⟩

/-! ## A page with two equal headings

The first heading finds its own markup by its key. The second finds no markup with its key left and
takes the other heading. The section finds the wrapper of its key; the group has the same key, which
the wrapper that is left does not hold, and keeps its class name. -/

/-- A heading of level one. -/
def headingNode (content : String) (className : Option String) : Node :=
  ⟨"heading", some content, { level := some .one }, none, none, none, className⟩

/-- A section with a heading, and a group with the same heading once more. -/
def twoHeadings : Document where
  metadata := ⟨"Page", none, none⟩
  tokens := { colors := ⟨"#00f", "#222", "#fff", "#111", none, none⟩ }
  header := none
  body := [
    { intent := "generic"
      layout := ⟨.constrained, none, none, none, none⟩
      children := [headingNode "Hi" (some "lead"),
        ⟨"group", none, {}, some [headingNode "Hi" none], none, none, none⟩]
      motion := none
      background := none
      style := none
      className := none }]
  footer := none
  stylesheet := some "._"

/-- Markup with a heading in each of two wrappers, all of them with the class `_`. -/
def twoWrappers : String :=
  "<div class='_'><h1 class='tall _'>Hi</h1></div><div class=_><h2 class=_>Ho</h2></div>"

/-- The counts of the page are ones that can be worked with. -/
theorem countFor_twoHeadings : Thresholds.CountFor {} twoHeadings := by
  intro target htarget _ _
  have hcards : ∀ n ∈ twoHeadings.walk.map fun target => target.keys.toFinset.card, n ≤ 3 := by
    decide +kernel
  exact ⟨1, Thresholds.required_default_of_le (hcards _ (List.mem_map_of_mem htarget))⟩

/-- What the recovery of the page makes of its class names. -/
theorem exists_recovered_twoHeadings :
    ∃ result, Convert.recovered? (.ok {}) twoHeadings (some twoWrappers) none = .ok (some result)
      ∧ result.walk.map Target.className = [some "_", some "lead _", none, some "_"] := by
  have hnames : (Convert.recovered? (.ok {}) twoHeadings (some twoWrappers) none).toOption.map
      (fun found => found.map fun result => result.walk.map Target.className)
        = some (some [some "_", some "lead _", none, some "_"]) := by
    decide +kernel
  exact exists_recovered_of_map hnames

/-- The recovery of the page is a matching, and this is what the class names become: the section and
the two headings have found theirs. -/
theorem recovered_matching_twoHeadings :
    ∃ found, Convert.recovered? (.ok {}) twoHeadings (some twoWrappers) none = .ok found
      ∧ (found.getD twoHeadings).walk.map Target.className
        = [some "_", some "lead _", none, some "_"]
      ∧ ∃ stock, ∃ m : Matching twoHeadings stock {}, m.Yields (found.getD twoHeadings) := by
  obtain ⟨hcompletes, hmatching⟩ :=
    recovered_matching twoHeadings (some twoWrappers) none {} (by decide +kernel)
  -- the markup has two wrappers with classes
  have hparses : (Stock.ofMarkup twoWrappers
      (definedClasses ((Convert.stylesheet twoHeadings none).getD ""))).toOption.map
        (fun stock => stock.containers.length) = some 2 := by
    decide +kernel
  obtain ⟨stock, hstock, -⟩ := Stock.exists_of_map hparses
  obtain ⟨found, hfound⟩ := hcompletes stock hstock countFor_twoHeadings
  obtain ⟨stock', -, m, hyields, -⟩ := hmatching found hfound
  refine ⟨found, hfound, ?_, stock', m, hyields⟩
  have hnames : (Convert.recovered? (.ok {}) twoHeadings (some twoWrappers) none).toOption.map
      (fun found => (found.getD twoHeadings).walk.map Target.className)
        = some [some "_", some "lead _", none, some "_"] := by
    decide +kernel
  rw [hfound] at hnames
  exact Option.some.inj hnames

end BlockTheme.Recovery
