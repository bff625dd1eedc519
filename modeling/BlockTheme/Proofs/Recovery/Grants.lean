import BlockTheme.Proofs.Recovery.Containers
import BlockTheme.Proofs.Recovery.Walk

/-!
# Runs of the assignment

One step answers one request: `Answers` lists all the ways in which it can, and `answer_eq_ok` says
that there are no others and that the step takes what it grants, and only that, out of the stock.
A run is a list of such steps (`assign_cons_eq_ok`), so the usage before any place of a run is what
the grants before this place have taken (`answers_of_assign`), and nothing is granted at two places
(`leaf_place_unique`, `container_place_unique`). What a run over the stock of a markup can count on
is in `Stock.Sound`.
-/

namespace BlockTheme.Recovery

variable {stock : Stock} {thresholds : Thresholds}

/-! ## One step -/

/-- The usage after a grant. -/
def Usage.take (usage : Usage) : Grant → Usage
  | .nothing => usage
  | .leaf found => { usage with leaves := found.id :: usage.leaves }
  | .container found => { usage with containers := found.id :: usage.containers }

/-- What a request can be answered with while some of the stock is in use. -/
inductive Answers (stock : Stock) (thresholds : Thresholds) (usage : Usage) :
    Request → Grant → Prop
  | nothing : Answers stock thresholds usage .nothing .nothing
  | noLeaf {kind : LeafKind} {key : String}
      (h : stock.index.find? usage.leaves key (some kind) = none) :
      Answers stock thresholds usage (.leaf kind key) .nothing
  | leaf {kind : LeafKind} {key : String} {found : Leaf}
      (h : stock.index.find? usage.leaves key (some kind) = some found) :
      Answers stock thresholds usage (.leaf kind key) (.leaf found)
  | noContainer {keys : List String}
      (h : Container.find? stock.containers usage.containers thresholds keys = .ok none) :
      Answers stock thresholds usage (.container keys) .nothing
  | container {keys : List String} {found : Container}
      (h : Container.find? stock.containers usage.containers thresholds keys = .ok (some found)) :
      Answers stock thresholds usage (.container keys) (.container found)

/-- **A step answers its request and takes what it grants.** What a step can do is said here once,
and all invariants of runs are derived from it. -/
theorem answer_eq_ok {usage usage' : Usage} {request : Request} {grant : Grant} :
    answer stock thresholds usage request = .ok (grant, usage') ↔
      Answers stock thresholds usage request grant ∧ usage' = usage.take grant := by
  constructor
  · intro h
    cases request with
    | nothing =>
      obtain ⟨rfl, rfl⟩ := Prod.mk.inj (Except.ok.inj h)
      exact ⟨.nothing, rfl⟩
    -- a leaf is found or not, but the search never fails
    | leaf kind key =>
      cases hfind : stock.index.find? usage.leaves key (some kind) with
      | none =>
        simp only [answer, hfind] at h
        obtain ⟨rfl, rfl⟩ := Prod.mk.inj (Except.ok.inj h)
        exact ⟨.noLeaf hfind, rfl⟩
      | some found =>
        simp only [answer, hfind] at h
        obtain ⟨rfl, rfl⟩ := Prod.mk.inj (Except.ok.inj h)
        exact ⟨.leaf hfind, rfl⟩
    -- the search for a container fails if the share cannot be counted
    | container keys =>
      cases hfind : Container.find? stock.containers usage.containers thresholds keys with
      | error why => simp [answer, hfind, Except.map] at h
      | ok result =>
        simp only [answer, hfind] at h
        cases result with
        | none =>
          obtain ⟨rfl, rfl⟩ := Prod.mk.inj (Except.ok.inj h)
          exact ⟨.noContainer hfind, rfl⟩
        | some found =>
          obtain ⟨rfl, rfl⟩ := Prod.mk.inj (Except.ok.inj h)
          exact ⟨.container hfind, rfl⟩
  · rintro ⟨hanswer, rfl⟩
    cases hanswer with
    | nothing => rfl
    | noLeaf h => simp [answer, h, Usage.take]
    | leaf h => simp [answer, h, Usage.take]
    | noContainer h => simp [answer, h, Usage.take, Except.map]
    | container h => simp [answer, h, Usage.take, Except.map]

theorem Answers.leaves_take {usage : Usage} {request : Request} {grant : Grant}
    (h : Answers stock thresholds usage request grant)
    (hrequest : ∀ kind key, request ≠ .leaf kind key) :
    (usage.take grant).leaves = usage.leaves := by
  cases h with
  | leaf _ => exact absurd rfl (hrequest _ _)
  | _ => rfl

/-- and only one for a container uses one of these. -/
theorem Answers.containers_take {usage : Usage} {request : Request} {grant : Grant}
    (h : Answers stock thresholds usage request grant)
    (hrequest : ∀ keys, request ≠ .container keys) :
    (usage.take grant).containers = usage.containers := by
  cases h with
  | container _ => exact absurd rfl (hrequest _)
  | _ => rfl

/-- A step succeeds unless it has to count with thresholds that give no number of keys. A request
for a leaf never fails; at worst nothing is granted. -/
theorem exists_answers (stock : Stock) (thresholds : Thresholds) (usage : Usage) {request : Request}
    (h : ∀ keys, request = .container keys →
      ∃ required, thresholds.required (Text.distinct keys).length = .ok required) :
    ∃ grant, Answers stock thresholds usage request grant := by
  cases request with
  | nothing => exact ⟨.nothing, .nothing⟩
  | leaf kind key =>
    cases hfind : stock.index.find? usage.leaves key (some kind) with
    | none => exact ⟨.nothing, .noLeaf hfind⟩
    | some found => exact ⟨.leaf found, .leaf hfind⟩
  | container keys =>
    -- only the share that a container needs can fail
    obtain ⟨required, hrequired⟩ := h keys rfl
    by_cases hkeys : keys = []
    · subst hkeys
      exact ⟨.nothing, .noContainer rfl⟩
    · have hfind : Container.find? stock.containers usage.containers thresholds keys = .ok _ :=
        (Container.find?_eq_ok hkeys).2 ⟨required, hrequired, rfl⟩
      cases hbest : Container.best? keys
          (Container.candidates stock.containers usage.containers required keys) with
      | none => exact ⟨.nothing, .noContainer (by rw [hfind, hbest])⟩
      | some found => exact ⟨.container found, .container (by rw [hfind, hbest])⟩

/-! ## Runs -/

/-- The usage after a list of grants. -/
def Usage.takeAll (usage : Usage) (grants : List Grant) : Usage := grants.foldl Usage.take usage

@[simp] theorem Usage.takeAll_nil (usage : Usage) : usage.takeAll [] = usage := rfl

@[simp] theorem Usage.takeAll_cons (usage : Usage) (grant : Grant) (rest : List Grant) :
    usage.takeAll (grant :: rest) = (usage.take grant).takeAll rest := rfl

/-- A run is a step and the run after it, which begins with what the step has left. With this all
that holds of runs is proved by induction on the requests, with one case for each answer. -/
theorem assign_cons_eq_ok {usage : Usage} {request : Request} {rest : List Request}
    {grants : List Grant} :
    assign stock thresholds usage (request :: rest) = .ok grants ↔
      ∃ grant more, grants = grant :: more ∧ Answers stock thresholds usage request grant
        ∧ assign stock thresholds (usage.take grant) rest = .ok more := by
  rw [assign]
  cases hanswer : answer stock thresholds usage request with
  | error why =>
    simp only [reduceCtorEq, false_iff]
    rintro ⟨grant, more, -, h, -⟩
    have hok := answer_eq_ok.2 ⟨h, rfl⟩
    exact absurd (hanswer.symm.trans hok) (by simp)
  | ok result =>
    obtain ⟨grant, usage'⟩ := result
    obtain ⟨hgrant, rfl⟩ := answer_eq_ok.1 hanswer
    constructor
    · intro h
      cases hmore : assign stock thresholds (usage.take grant) rest with
      | error why => simp [hmore, Except.map] at h
      | ok more =>
        simp only [hmore, Except.map, Except.ok.injEq] at h
        exact ⟨grant, more, h.symm, hgrant, hmore⟩
    · rintro ⟨other, more, rfl, hother, hmore⟩
      -- the step is a function: the grant of the run is the one that was computed
      have hsame := hanswer.symm.trans (answer_eq_ok.2 ⟨hother, rfl⟩)
      obtain ⟨rfl, -⟩ := Prod.mk.inj (Except.ok.inj hsame)
      simp [hmore, Except.map]

/-- **Every step of a run answers its request while all that was granted before is in use.** By
induction on the requests. It makes statements about places of a run out of statements about steps.
-/
theorem answers_of_assign {usage : Usage} {requests : List Request} {grants : List Grant}
    (h : assign stock thresholds usage requests = .ok grants) {place : Nat} {grant : Grant}
    (hgrant : grants[place]? = some grant) :
    ∃ request, requests[place]? = some request
      ∧ Answers stock thresholds (usage.takeAll (grants.take place)) request grant := by
  induction requests generalizing usage grants place with
  | nil =>
    obtain rfl := Except.ok.inj h
    simp at hgrant
  | cons request rest ih =>
    obtain ⟨first, more, rfl, hfirst, hmore⟩ := assign_cons_eq_ok.1 h
    cases place with
    | zero =>
      obtain rfl : first = grant := by simpa using hgrant
      exact ⟨request, rfl, hfirst⟩
    | succ place =>
      obtain ⟨asked, hasked, hanswers⟩ := ih hmore (by simpa using hgrant)
      exact ⟨asked, by simpa using hasked, by simpa using hanswers⟩

/-- A run succeeds if the thresholds give a number for every request for a container, by induction
on the requests. -/
theorem exists_assign (usage : Usage) {requests : List Request}
    (h : ∀ keys, Request.container keys ∈ requests →
      ∃ required, thresholds.required (Text.distinct keys).length = .ok required) :
    ∃ grants, assign stock thresholds usage requests = .ok grants := by
  induction requests generalizing usage with
  | nil => exact ⟨[], rfl⟩
  | cons request rest ih =>
    obtain ⟨grant, hgrant⟩ := exists_answers stock thresholds usage
      fun keys hkeys => h keys (hkeys ▸ List.mem_cons_self)
    obtain ⟨more, hmore⟩ := ih (usage.take grant)
      fun keys hkeys => h keys (List.mem_cons_of_mem _ hkeys)
    exact ⟨grant :: more, assign_cons_eq_ok.2 ⟨grant, more, rfl, hgrant, hmore⟩⟩

/-- A run that completes got a number for every request for a container that names keys. This is the
converse of `exists_assign`, but for requests without keys, which are answered without counting. -/
theorem exists_required_of_assign {usage : Usage} {requests : List Request} {grants : List Grant}
    (h : assign stock thresholds usage requests = .ok grants) {keys : List String}
    (hmem : .container keys ∈ requests) (hkeys : keys ≠ []) :
    ∃ required, thresholds.required (Text.distinct keys).length = .ok required := by
  induction requests generalizing usage grants with
  | nil => exact absurd hmem List.not_mem_nil
  | cons request rest ih =>
    obtain ⟨grant, more, -, hanswers, hmore⟩ := assign_cons_eq_ok.1 h
    rcases List.mem_cons.1 hmem with rfl | hlater
    · have hfind : ∃ found,
          Container.find? stock.containers usage.containers thresholds keys = .ok found := by
        cases hanswers with
        | noContainer hnone => exact ⟨none, hnone⟩
        | container hsome => exact ⟨some _, hsome⟩
      obtain ⟨found, hfind⟩ := hfind
      obtain ⟨required, hrequired, -⟩ := (Container.find?_eq_ok hkeys).1 hfind
      exact ⟨required, hrequired⟩
    · exact ih hmore hlater

/-! ## What is in use -/

/-- The leaves in use are those that were and those that were granted since. -/
theorem mem_leaves_takeAll {usage : Usage} {grants : List Grant} {id : Nat} :
    id ∈ (usage.takeAll grants).leaves ↔
      id ∈ usage.leaves ∨ ∃ leaf, Grant.leaf leaf ∈ grants ∧ leaf.id = id := by
  induction grants generalizing usage with
  | nil => simp
  | cons grant rest ih =>
    rw [Usage.takeAll_cons, ih]
    cases grant with
    | nothing => simp [Usage.take]
    | leaf found => simp [Usage.take, or_and_right, exists_or, or_assoc, eq_comm, or_left_comm]
    | container found => simp [Usage.take]

/-- A container is in use if it was or if it is among the grants. -/
theorem mem_containers_takeAll {usage : Usage} {grants : List Grant} {id : Nat} :
    id ∈ (usage.takeAll grants).containers ↔
      id ∈ usage.containers ∨ ∃ c, Grant.container c ∈ grants ∧ c.id = id := by
  induction grants generalizing usage with
  | nil => simp
  | cons grant rest ih =>
    rw [Usage.takeAll_cons, ih]
    cases grant with
    | nothing => simp [Usage.take]
    | leaf found => simp [Usage.take]
    | container found => simp [Usage.take, or_and_right, exists_or, or_assoc, eq_comm, or_left_comm]

/-! ## Single use -/

/-- What was granted at an earlier place is among the grants up to a later one. -/
theorem mem_take_of_lt {grants : List Grant} {i j : Nat} {grant : Grant}
    (h : grants[i]? = some grant) (hlt : i < j) : grant ∈ grants.take j :=
  List.mem_of_getElem? (i := i) (by rw [List.getElem?_take, if_pos hlt, h])

/-- **No leaf is granted at two places of a run.** At the later place it would have been in use, and
what is in use is not granted. -/
theorem leaf_place_unique {usage : Usage} {requests : List Request} {grants : List Grant}
    (h : assign stock thresholds usage requests = .ok grants) {i j : Nat} {a b : Leaf}
    (hi : grants[i]? = some (.leaf a)) (hj : grants[j]? = some (.leaf b)) (hid : a.id = b.id) :
    i = j := by
  -- what is granted at the later place was not in use, but the grant before it had taken it
  have hlt : ∀ {i j : Nat} {a b : Leaf}, grants[i]? = some (.leaf a) →
      grants[j]? = some (.leaf b) → a.id = b.id → ¬i < j := by
    intro i j a b hi hj hid hlt
    obtain ⟨request, -, hanswers⟩ := answers_of_assign h hj
    cases hanswers with
    | leaf hfind =>
      refine LeafIndex.not_mem_of_find?_eq_some hfind ?_
      exact mem_leaves_takeAll.2 (Or.inr ⟨a, mem_take_of_lt hi hlt, hid⟩)
  have hij := hlt hi hj hid
  have hji := hlt hj hi hid.symm
  omega

/-- **No container is granted at two places of a run.** For the same reason as with leaves: what is
granted is in use from then on, and only what is not in use is granted. -/
theorem container_place_unique {usage : Usage} {requests : List Request} {grants : List Grant}
    (h : assign stock thresholds usage requests = .ok grants) {i j : Nat} {a b : Container}
    (hi : grants[i]? = some (.container a)) (hj : grants[j]? = some (.container b))
    (hid : a.id = b.id) : i = j := by
  have hlt : ∀ {i j : Nat} {a b : Container}, grants[i]? = some (.container a) →
      grants[j]? = some (.container b) → a.id = b.id → ¬i < j := by
    intro i j a b hi hj hid hlt
    obtain ⟨request, -, hanswers⟩ := answers_of_assign h hj
    cases hanswers with
    | container hfind =>
      refine (Container.find?_eq_some hfind).2.1 ?_
      exact mem_containers_takeAll.2 (Or.inr ⟨a, mem_take_of_lt hi hlt, hid⟩)
  have hij := hlt hi hj hid
  have hji := hlt hj hi hid.symm
  omega

/-! ## The stock of a markup -/

/-- A stock whose index is sound, whose containers are numbered by their places and well formed,
and whose leaves have words for classes. -/
structure Stock.Sound (stock : Stock) : Prop where
  index : stock.index.Sound
  container_id_eq : ∀ {place : Nat} {c : Container},
    stock.containers[place]? = some c → c.id = place
  wellFormed : ∀ {c : Container}, c ∈ stock.containers → c.WellFormed
  ne_empty_of_mem_classes : ∀ {leaf : Leaf}, leaf ∈ stock.index.leaves →
    ∀ {name : String}, name ∈ leaf.classes → name ≠ ""

theorem Stock.Sound.nodup_container_ids (h : stock.Sound) :
    (stock.containers.map Container.id).Nodup :=
  nodup_map_of_places h.container_id_eq

/-- The stock of a markup is made of its elements. -/
theorem Stock.ofMarkup_eq_ok {html : String} {defined : List String} {stock : Stock} :
    Stock.ofMarkup html defined = .ok stock ↔
      ∃ trees, Html.parse html = .ok trees
        ∧ stock = ⟨LeafIndex.ofTags (Html.tagsOf trees) defined,
            Container.ofTags (Html.tagsOf trees) defined⟩ := by
  unfold Stock.ofMarkup
  cases Html.parse html with
  | error why => simp [Except.map]
  | ok trees => simp [Except.map, eq_comm]

/-- **The stock of a markup is sound.** Its index is, and its containers are numbered and well
formed. -/
theorem Stock.sound_ofMarkup {html : String} {defined : List String} {stock : Stock}
    (h : Stock.ofMarkup html defined = .ok stock) : stock.Sound := by
  obtain ⟨trees, -, rfl⟩ := Stock.ofMarkup_eq_ok.1 h
  exact
    { index := LeafIndex.sound_ofTags _ _
      container_id_eq := Container.id_eq_of_getElem?
      wellFormed := Container.wellFormed_of_mem_ofTags
      ne_empty_of_mem_classes := fun hleaf _ hname => by
        obtain ⟨tag, -, hclasses⟩ := LeafIndex.exists_tag_of_mem_ofTags hleaf
        rw [hclasses] at hname
        exact LeafIndex.ne_empty_of_mem_classesOf hname }

/-- What is known of the stock of a markup is known of a stock. -/
theorem Stock.exists_of_map {html : String} {defined : List String} {α : Type}
    {look : Stock → α} {seen : α}
    (h : (Stock.ofMarkup html defined).toOption.map look = some seen) :
    ∃ stock, Stock.ofMarkup html defined = .ok stock ∧ look stock = seen := by
  cases hstock : Stock.ofMarkup html defined with
  | error why => simp [hstock, Except.toOption] at h
  | ok stock => exact ⟨stock, rfl, by simpa [hstock, Except.toOption] using h⟩

end BlockTheme.Recovery
