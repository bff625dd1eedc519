import BlockTheme.Proofs.Binary64.Order
import BlockTheme.Proofs.Recovery.Leaves
import BlockTheme.Proofs.Recovery.Thresholds
import BlockTheme.Recovery.Container
import Mathlib.Data.Finset.Card
import Mathlib.Data.Finset.Lattice.Basic

/-!
# The search for a container

The containers of a markup (`Container.WellFormed`, `wellFormed_of_mem_ofTags`), and what a search
among containers finds. To be better is to share more keys, or as many with fewer of its own
(`isBetter_iff`): the part that a rank has in it says nothing else, however it is rounded. `best?` is
a fold that keeps the better of two containers; read as a whole it picks the first of the best ones
(`best?_eq_some`), and `find?_eq_ok` says the same of the search that leaves out what is used and
what shares too few keys. How many keys are shared is the size of an intersection
(`overlap_eq_card`).
-/

namespace BlockTheme.Recovery

/-! ## The containers of a markup -/

/-- A container as a markup gives it: with classes, which are words, and with keys, no one twice. -/
structure Container.WellFormed (c : Container) : Prop where
  classes_ne_nil : c.classes ≠ []
  ne_empty_of_mem_classes : ∀ {name : String}, name ∈ c.classes → name ≠ ""
  keys_ne_nil : c.keys ≠ []
  nodup_keys : c.keys.Nodup

namespace Container

theorem id_eq_of_getElem? {tags : List Html.Tag} {defined : List String} {place : Nat}
    {c : Container} (h : (ofTags tags defined)[place]? = some c) : c.id = place := by
  simp only [ofTags, List.getElem?_map, List.getElem?_zipIdx, Option.map_map,
    Option.map_eq_some_iff] at h
  obtain ⟨parts, -, rfl⟩ := h
  simp

/-- An element is a container if it has a name of one, classes of the stylesheet and keyed leaves
inside it. -/
theorem isSome_parts?_iff {defined : List String} {tag : Html.Tag} :
    (parts? defined tag).isSome ↔ tag.name ∈ elements ∧ LeafIndex.classesOf defined tag ≠ []
      ∧ tagKeys tag.inside ≠ [] := by
  simp only [parts?, Option.isSome_ite']
  simp [and_assoc]

theorem parts?_eq_some {defined : List String} {tag : Html.Tag} {classes keys : List String}
    (h : parts? defined tag = some (classes, keys)) :
    classes = LeafIndex.classesOf defined tag ∧ keys = tagKeys tag.inside
      ∧ classes ≠ [] ∧ keys ≠ [] := by
  have hsome := isSome_parts?_iff.1 (Option.isSome_of_eq_some h)
  unfold parts? at h
  obtain ⟨-, heq⟩ := Option.ite_none_left_eq_some.1 h
  obtain ⟨rfl, rfl⟩ := Prod.mk.inj (Option.some.inj heq)
  exact ⟨rfl, rfl, hsome.2⟩

/-- Every container of an index has classes and keys, and no key twice. What has none of the one or
the other is not indexed. -/
theorem wellFormed_of_mem_ofTags {tags : List Html.Tag} {defined : List String} {c : Container}
    (h : c ∈ ofTags tags defined) : c.WellFormed := by
  obtain ⟨⟨⟨classes, keys⟩, id⟩, hmem, rfl⟩ := List.mem_map.1 h
  obtain ⟨tag, -, hparts⟩ := List.mem_filterMap.1 (List.fst_mem_of_mem_zipIdx hmem)
  obtain ⟨rfl, rfl, hclasses, hkeys⟩ := parts?_eq_some hparts
  exact
    { classes_ne_nil := hclasses
      ne_empty_of_mem_classes := LeafIndex.ne_empty_of_mem_classesOf
      keys_ne_nil := hkeys
      nodup_keys := Text.nodup_distinct _ }

/-! ## How many keys are shared -/

/-- The keys in common, as sets: neither side has a key twice, or it does not count twice. -/
theorem overlap_eq_card (keys : List String) (c : Container) :
    c.overlap keys = (keys.toFinset ∩ c.keys.toFinset).card := by
  have hfilter : keys.toFinset ∩ c.keys.toFinset
      = ((Text.distinct c.keys).filter fun key => keys.contains key).toFinset := by
    ext key
    simp [and_comm]
  rw [hfilter, List.toFinset_card_of_nodup ((Text.nodup_distinct _).filter _),
    overlap, List.countP_eq_length_filter]

/-- The size of a target is how many different keys it has. -/
theorem length_distinct_eq_card (keys : List String) :
    (Text.distinct keys).length = keys.toFinset.card := by
  have hsame : keys.toFinset = (Text.distinct keys).toFinset := by
    ext key
    simp
  rw [hsame, List.toFinset_card_of_nodup (Text.nodup_distinct keys)]

/-! ## The best container -/

/-- No more keys are in common than the container has. -/
theorem overlap_le_length (keys : List String) (c : Container) :
    c.overlap keys ≤ c.keys.length := by
  rw [overlap_eq_card]
  exact (Finset.card_le_card Finset.inter_subset_right).trans (List.toFinset_card_le _)

/-- Of two containers that share as many keys the one with fewer keys is the tighter one, unless
rounding makes them equally tight. -/
theorem tightness_eq_or_lt {keys : List String} {c other : Container}
    (hoverlap : c.overlap keys = other.overlap keys) (hle : c.keys.length ≤ other.keys.length) :
    (c.rank keys).tightness = (other.rank keys).tightness
      ∨ (other.rank keys).tightness.lt (c.rank keys).tightness = true := by
  have hlength := overlap_le_length keys c
  simp only [rank, ← hoverlap]
  rcases Nat.eq_zero_or_pos (c.overlap keys) with hzero | hpos
  · -- no part of any number of keys is zero
    exact Or.inl (by rw [hzero]; rfl)
  · have hsize : (0 : ℚ) < c.keys.length := by exact_mod_cast hpos.trans_le hlength
    have hquotient : (c.overlap keys : ℚ) / other.keys.length ≤ c.overlap keys / c.keys.length := by
      gcongr
    have hone : (c.overlap keys : ℚ) / c.keys.length < Binary64.range := by
      have hpart : (c.overlap keys : ℚ) / c.keys.length ≤ 1 := by
        rw [div_le_one hsize]
        exact_mod_cast hlength
      refine hpart.trans_lt ?_
      rw [Binary64.range_eq]
      exact one_lt_zpow₀ (by norm_num) (by norm_num)
    exact (Binary64.ofRatio_eq_or_lt hpos (by omega) hpos (by omega) hquotient hone).imp_left
      Eq.symm

/-- To be better is to share more, or as much with fewer keys: the part that is shared says nothing
else. -/
theorem isBetter_iff {keys : List String} {c other : Container} :
    isBetter keys c other = true ↔
      other.overlap keys < c.overlap keys
        ∨ (c.overlap keys = other.overlap keys ∧ c.keys.length < other.keys.length) := by
  have hrank : ∀ c : Container, (c.rank keys).overlap = c.overlap keys
      ∧ (c.rank keys).size = c.keys.length := fun _ => ⟨rfl, rfl⟩
  unfold isBetter Rank.exceeds
  rw [(hrank c).1, (hrank other).1, (hrank c).2, (hrank other).2]
  -- equal overlaps are decided by the tightness, and this by the number of keys
  by_cases hoverlap : c.overlap keys = other.overlap keys
  · rw [if_neg (not_not.2 hoverlap)]
    by_cases htight : (c.rank keys).tightness = (other.rank keys).tightness
    · rw [if_neg (not_not.2 htight)]
      simp [hoverlap]
    · -- different parts of the same number of keys are parts of different numbers
      rw [if_pos htight]
      rcases Nat.lt_or_ge c.keys.length other.keys.length with hlt | hge
      · have hless := (tightness_eq_or_lt hoverlap hlt.le).resolve_left htight
        simp [hless, hoverlap, hlt]
      · have hless := (tightness_eq_or_lt hoverlap.symm hge).resolve_left (Ne.symm htight)
        simp [Binary64.lt_asymm hless, hoverlap, hge]
  · rw [if_pos hoverlap]
    simp [hoverlap]

/-- Being better is transitive, also through one that is no better. -/
theorem isBetter_of_not_isBetter {keys : List String} {a b c : Container}
    (h : isBetter keys a b = true) (hc : ¬isBetter keys c b = true) : isBetter keys a c = true := by
  rw [isBetter_iff] at *
  omega

/-- Being better is transitive, so that a fold over the containers finds a best one. -/
theorem isBetter_trans {keys : List String} {a b c : Container}
    (hab : isBetter keys a b = true) (hbc : isBetter keys b c = true) :
    isBetter keys a c = true := by
  rw [isBetter_iff] at *
  omega

/-- One step of the choice. -/
def better (keys : List String) (best : Option Container) (c : Container) : Option Container :=
  match best with
  | none => some c
  | some b => if isBetter keys c b then some c else some b

/-- The best container is found by going through them once. -/
theorem best?_eq_foldl (keys : List String) (containers : List Container) :
    best? keys containers = containers.foldl (better keys) none := rfl

/-- `pick` stands first among the best of a list: it beats everything before it, and nothing after
it beats it. -/
def IsFirstBest (keys : List String) (containers : List Container) (pick : Container) : Prop :=
  ∃ before after, containers = before ++ pick :: after
    ∧ (∀ c ∈ before, isBetter keys pick c = true) ∧ ∀ c ∈ after, ¬isBetter keys c pick = true

/-- From a container that is held already, the choice ends with this one or with the first best of
those that beat it. -/
theorem foldl_better_some (keys : List String) (containers : List Container) (held : Container) :
    ∃ pick, containers.foldl (better keys) (some held) = some pick
      ∧ IsFirstBest keys (held :: containers) pick := by
  -- on the list, with the held container standing before it: what the fold keeps is the first best
  -- of both
  induction containers generalizing held with
  | nil => exact ⟨held, rfl, [], [], rfl, by simp, by simp⟩
  | cons c rest ih =>
    rw [List.foldl_cons]
    by_cases hc : isBetter keys c held = true
    · -- `c` takes over, and what beats `c` beats the one that was held
      obtain ⟨pick, hpick, before, after, hsplit, hbefore, hafter⟩ := ih c
      refine ⟨pick, by simpa [better, hc] using hpick, held :: before, after, ?_, ?_, hafter⟩
      · rw [hsplit]
        rfl
      · refine List.forall_mem_cons.2 ⟨?_, hbefore⟩
        cases before with
        | nil =>
          obtain ⟨rfl, -⟩ := List.cons.inj hsplit
          exact hc
        | cons b bs =>
          obtain ⟨rfl, -⟩ := List.cons.inj hsplit
          exact isBetter_trans (hbefore c List.mem_cons_self) hc
    · -- `c` is passed over, before or after the pick
      obtain ⟨pick, hpick, before, after, hsplit, hbefore, hafter⟩ := ih held
      cases before with
      | nil =>
        obtain ⟨rfl, rfl⟩ := List.cons.inj hsplit
        exact ⟨held, by simpa [better, hc] using hpick, [], c :: rest, rfl, by simp,
          List.forall_mem_cons.2 ⟨hc, hafter⟩⟩
      | cons b bs =>
        obtain ⟨rfl, hrest⟩ := List.cons.inj hsplit
        obtain ⟨hheld, hbs⟩ := List.forall_mem_cons.1 hbefore
        refine ⟨pick, by simpa [better, hc] using hpick, held :: c :: bs, after, ?_, ?_, hafter⟩
        · rw [hrest]
          rfl
        · exact List.forall_mem_cons.2 ⟨hheld,
            List.forall_mem_cons.2 ⟨isBetter_of_not_isBetter hheld hc, hbs⟩⟩

/-- **What is chosen is the first of the best.** By induction over the containers, with what was
best so far. -/
theorem best?_eq_some {keys : List String} {containers : List Container} {pick : Container}
    (h : best? keys containers = some pick) : IsFirstBest keys containers pick := by
  rw [best?_eq_foldl] at h
  cases containers with
  | nil => simp at h
  | cons c rest =>
    obtain ⟨found, hfound, hbest⟩ := foldl_better_some keys rest c
    have hsame : some found = some pick := hfound.symm.trans h
    rwa [Option.some.inj hsame] at hbest

theorem best?_eq_none {keys : List String} {containers : List Container}
    (h : best? keys containers = none) : containers = [] := by
  rw [best?_eq_foldl] at h
  cases containers with
  | nil => rfl
  | cons c rest =>
    obtain ⟨found, hfound, -⟩ := foldl_better_some keys rest c
    exact absurd (hfound.symm.trans h) (by simp)

/-- The first container is chosen if none of the others beats it, also if some are as good: the
search keeps what it has. -/
theorem best?_cons_of_forall {keys : List String} {c : Container} {rest : List Container}
    (h : ∀ other ∈ rest, ¬isBetter keys other c = true) : best? keys (c :: rest) = some c := by
  cases hbest : best? keys (c :: rest) with
  | none => exact absurd (best?_eq_none hbest) (by simp)
  | some pick =>
    obtain ⟨before, after, hsplit, hbefore, -⟩ := best?_eq_some hbest
    cases before with
    | nil => rw [(List.cons.inj hsplit).1]
    | cons b bs =>
      -- the pick would stand after `c` and beat it
      obtain ⟨rfl, hrest⟩ := List.cons.inj hsplit
      have hmem : pick ∈ rest := by simp [hrest]
      exact absurd (hbefore c List.mem_cons_self) (h pick hmem)

/-! ## The search -/

/-- The containers that a search may choose from. -/
def candidates (containers : List Container) (used : List Nat) (required : Nat)
    (keys : List String) : List Container :=
  containers.filter fun c => !used.contains c.id && required ≤ c.overlap keys

/-- Containers that can be chosen are not in use and have enough keys in common. -/
theorem mem_candidates {containers : List Container} {used : List Nat} {required : Nat}
    {keys : List String} {c : Container} :
    c ∈ candidates containers used required keys ↔
      c ∈ containers ∧ c.id ∉ used ∧ required ≤ c.overlap keys := by
  simp [candidates]

/-- With keys to look for, a search asks how many have to be shared and chooses the best of the
candidates. -/
theorem find?_eq_ok {containers : List Container} {used : List Nat} {thresholds : Thresholds}
    {keys : List String} (hkeys : keys ≠ []) {found : Option Container} :
    find? containers used thresholds keys = .ok found ↔
      ∃ required, thresholds.required (Text.distinct keys).length = .ok required
        ∧ found = best? keys (candidates containers used required keys) := by
  have hempty : keys.isEmpty = false := by simpa using hkeys
  unfold find? candidates
  rw [hempty]
  cases hrequired : thresholds.required (Text.distinct keys).length with
  | error why => simp [Except.map]
  | ok required =>
    simp only [Bool.false_eq_true, if_false, Except.map, Except.ok.injEq, exists_eq_left']
    exact eq_comm

/-- What a search finds is the first of the best candidates. -/
theorem isFirstBest_of_find? {containers : List Container} {used : List Nat}
    {thresholds : Thresholds} {keys : List String} {c : Container}
    (h : find? containers used thresholds keys = .ok (some c)) :
    ∃ required, thresholds.required (Text.distinct keys).length = .ok required
      ∧ IsFirstBest keys (candidates containers used required keys) c := by
  have hkeys : keys ≠ [] := by
    rintro rfl
    simp [find?] at h
  obtain ⟨required, hrequired, hfound⟩ := (find?_eq_ok hkeys).1 h
  exact ⟨required, hrequired, best?_eq_some hfound.symm⟩

/-- **What a search finds is an unused container that shares enough keys.** How many are enough is
decided by the thresholds, which may fail to give a number. -/
theorem find?_eq_some {containers : List Container} {used : List Nat} {thresholds : Thresholds}
    {keys : List String} {c : Container}
    (h : find? containers used thresholds keys = .ok (some c)) :
    c ∈ containers ∧ c.id ∉ used ∧
      ∃ required, thresholds.required (Text.distinct keys).length = .ok required
        ∧ required ≤ c.overlap keys := by
  obtain ⟨required, hrequired, before, after, hsplit, -, -⟩ := isFirstBest_of_find? h
  have hmem : c ∈ candidates containers used required keys := by simp [hsplit]
  obtain ⟨hin, hunused, hshared⟩ := mem_candidates.1 hmem
  exact ⟨hin, hunused, required, hrequired, hshared⟩

/-- Containers with the same set of keys are no better than one another. -/
theorem not_isBetter_of_sameSet {keys : List String} {c other : Container} (hc : c.WellFormed)
    (hother : other.WellFormed) (hsame : c.keys.toFinset = other.keys.toFinset) :
    ¬isBetter keys c other = true := by
  have hoverlap : c.overlap keys = other.overlap keys := by
    rw [overlap_eq_card, overlap_eq_card, hsame]
  have hlength : c.keys.length = other.keys.length := by
    rw [← List.toFinset_card_of_nodup hc.nodup_keys, hsame,
      List.toFinset_card_of_nodup hother.nodup_keys]
  rw [isBetter_iff]
  omega

/-- Every container with the keys of the one that a search finds, and with a lower number, is in
use. -/
theorem mem_of_find?_of_lt {containers : List Container}
    (hids : ∀ {place : Nat} {c : Container}, containers[place]? = some c → c.id = place)
    (hwell : ∀ {c : Container}, c ∈ containers → c.WellFormed) {used : List Nat}
    {thresholds : Thresholds} {keys : List String} {found c : Container}
    (hfind : find? containers used thresholds keys = .ok (some found)) (hc : c ∈ containers)
    (hsame : c.keys.toFinset = found.keys.toFinset) (hlt : c.id < found.id) : c.id ∈ used := by
  by_contra hunused
  obtain ⟨required, -, before, after, hsplit, hbefore, -⟩ := isFirstBest_of_find? hfind
  have hfound : found ∈ candidates containers used required keys := by simp [hsplit]
  obtain ⟨hin, -, hshared⟩ := mem_candidates.1 hfound
  -- sharing as many keys, the container is a candidate like the one that is found
  have hcandidate : c ∈ candidates containers used required keys := by
    refine mem_candidates.2 ⟨hc, hunused, ?_⟩
    rwa [overlap_eq_card, hsame, ← overlap_eq_card]
  have hrise : (candidates containers used required keys).Pairwise fun a b => a.id < b.id :=
    (pairwise_lt_of_places hids).filter _
  rw [hsplit, List.mem_append, List.mem_cons] at hcandidate
  rw [hsplit, List.pairwise_append, List.pairwise_cons] at hrise
  rcases hcandidate with hearlier | rfl | hlater
  · exact not_isBetter_of_sameSet (hwell hin) (hwell hc) hsame.symm (hbefore c hearlier)
  · omega
  · have hgt := hrise.2.1.1 c hlater
    omega

end Container

end BlockTheme.Recovery
