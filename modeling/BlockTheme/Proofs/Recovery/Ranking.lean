import BlockTheme.Proofs.Recovery.Containers

/-!
# The search finds a best container

What a search finds, said of the whole list of containers: of those that are not used and share
enough keys, the one that shares the most keys, of several such the one with the fewest keys, and of
several such the first (`IsBest`). There is at most one (`IsBest.unique`), the first best candidate
is it (`isBest_of_isFirstBest`), and it stays it when more shared keys are asked for, as long as any
container fits (`IsBest.tighten`).
-/

namespace BlockTheme.Recovery.Container

variable {containers : List Container} {used : List Nat} {required : Nat} {keys : List String}

/-- How many of the keys that are looked for a container has. -/
def shared (keys : List String) (c : Container) : Nat := (keys.toFinset ∩ c.keys.toFinset).card

theorem overlap_eq_shared (keys : List String) (c : Container) : c.overlap keys = shared keys c :=
  overlap_eq_card keys c

/-- A container that a search may choose: it is not used yet and shares enough keys. -/
structure Fits (used : List Nat) (required : Nat) (keys : List String) (c : Container) : Prop where
  unused : c.id ∉ used
  enough : required ≤ shared keys c

/-- `c`, at its place in the list, comes before `other` at its own: by how many keys they share,
then by how many they have, then by their places. -/
def Precedes (keys : List String) (place : Nat) (c : Container) (place' : Nat) (other : Container) :
    Prop :=
  shared keys other < shared keys c
    ∨ shared keys other = shared keys c
      ∧ (c.keys.length < other.keys.length ∨ c.keys.length = other.keys.length ∧ place ≤ place')

/-- `c` fits, and it comes before every container of the list that fits. -/
def IsBest (containers : List Container) (used : List Nat) (required : Nat) (keys : List String)
    (c : Container) : Prop :=
  ∃ place, containers[place]? = some c ∧ Fits used required keys c
    ∧ ∀ {place' : Nat} {other : Container}, containers[place']? = some other →
      Fits used required keys other → Precedes keys place c place' other

theorem mem_candidates_iff_fits {c : Container} :
    c ∈ candidates containers used required keys ↔ c ∈ containers ∧ Fits used required keys c := by
  rw [mem_candidates, overlap_eq_shared]
  exact ⟨fun h => ⟨h.1, h.2.1, h.2.2⟩, fun h => ⟨h.1, h.2.1, h.2.2⟩⟩

theorem isBetter_iff_shared {c other : Container} :
    isBetter keys c other = true ↔ shared keys other < shared keys c
      ∨ (shared keys c = shared keys other ∧ c.keys.length < other.keys.length) := by
  rw [isBetter_iff, overlap_eq_shared, overlap_eq_shared]

/-- **There is one best container at most.** Of two that rank alike the one with the lower number is
better, and numbers are different. -/
theorem IsBest.unique {c other : Container} (h : IsBest containers used required keys c)
    (h' : IsBest containers used required keys other) : c = other := by
  obtain ⟨place, hplace, hfits, hfirst⟩ := h
  obtain ⟨place', hplace', hfits', hfirst'⟩ := h'
  have hle := hfirst hplace' hfits'
  have hge := hfirst' hplace hfits
  unfold Precedes at hle hge
  obtain rfl : place = place' := by omega
  exact Option.some.inj (hplace.symm.trans hplace')

/-- The first of the best candidates is the best container. Candidates keep the order of the
containers, so that the first one among them is the first one of all that fit. -/
theorem isBest_of_isFirstBest {c : Container}
    (h : IsFirstBest keys (candidates containers used required keys) c) :
    IsBest containers used required keys c := by
  obtain ⟨before, after, hsplit, hbefore, hafter⟩ := h
  have hfits := (mem_candidates_iff_fits.1 (hsplit ▸ List.mem_append_right before
    List.mem_cons_self)).2
  -- the candidates before and after it are those of the containers before and after it
  obtain ⟨front, rest, hcontainers, hfront, hrest⟩ := List.filter_eq_append_iff.1 hsplit
  obtain ⟨passed, back, hpassed, hnone, -, hback⟩ := List.filter_eq_cons_iff.1 hrest
  have hlist : containers = (front ++ passed) ++ c :: back := by
    rw [hcontainers, hpassed, List.append_assoc]
  refine ⟨(front ++ passed).length, by rw [hlist, List.getElem?_append_right le_rfl]; simp, hfits,
    fun {place' other} hplace' hother => ?_⟩
  have hin : ∀ part : List Container, other ∈ part →
      other ∈ part.filter fun c => !used.contains c.id && required ≤ c.overlap keys :=
    fun part hpart => mem_candidates_iff_fits.2 ⟨hpart, hother⟩
  rw [hlist] at hplace'
  rcases Nat.lt_trichotomy place' (front ++ passed).length with hlt | heq | hgt
  · rw [List.getElem?_append_left hlt] at hplace'
    rcases List.mem_append.1 (List.mem_of_getElem? hplace') with hmem | hmem
    · have hbeats := isBetter_iff_shared.1 (hbefore other (hfront ▸ hin front hmem))
      unfold Precedes
      omega
    · have hmiss := hnone other hmem
      exact absurd (List.mem_filter.1 (hin passed hmem)).2 hmiss
  · subst heq
    rw [List.getElem?_append_right le_rfl, Nat.sub_self, List.getElem?_cons_zero] at hplace'
    obtain rfl := Option.some.inj hplace'
    exact Or.inr ⟨rfl, Or.inr ⟨rfl, le_rfl⟩⟩
  · rw [List.getElem?_append_right hgt.le] at hplace'
    have hmem : other ∈ c :: back := List.mem_of_getElem? hplace'
    rcases List.mem_cons.1 hmem with rfl | hmem
    · exact Or.inr ⟨rfl, Or.inr ⟨rfl, hgt.le⟩⟩
    · have hbeats := mt isBetter_iff_shared.2 (hafter other (hback ▸ hin back hmem))
      unfold Precedes
      omega

/-- **The best container stays the best when more keys have to be shared**, unless none fits any
more. Fewer containers are left to compare it with. -/
theorem IsBest.tighten {c other : Container} {more : Nat}
    (h : IsBest containers used required keys c) (hle : required ≤ more)
    (hother : other ∈ containers) (hfits : Fits used more keys other) :
    IsBest containers used more keys c := by
  obtain ⟨place, hplace, hc, hfirst⟩ := h
  have hloose : ∀ {d : Container}, Fits used more keys d → Fits used required keys d :=
    fun hd => ⟨hd.unused, hle.trans hd.enough⟩
  obtain ⟨place', hplace'⟩ := List.getElem?_of_mem hother
  have hprecedes := hfirst hplace' (hloose hfits)
  have henough := hfits.enough
  unfold Precedes at hprecedes
  exact ⟨place, hplace, ⟨hc.unused, by omega⟩, fun hat hd => hfirst hat (hloose hd)⟩

/-- What shares a key has a key. -/
theorem Fits.length_pos {c : Container} (h : Fits used required keys c) (hrequired : 1 ≤ required) :
    0 < c.keys.length := by
  have hle := overlap_le_length keys c
  rw [overlap_eq_shared] at hle
  exact hrequired.trans (h.enough.trans hle)

section Search

variable {thresholds : Thresholds}

/-- With a number of keys to share, a search finds the best container, or nothing if none fits. -/
theorem exists_find?_eq_ok (containers : List Container) (used : List Nat) (hkeys : keys ≠ [])
    (h : thresholds.required keys.toFinset.card = .ok required) :
    ∃ found, find? containers used thresholds keys = .ok found
      ∧ (found = none → ∀ c ∈ containers, ¬Fits used required keys c)
      ∧ ∀ c, found = some c → IsBest containers used required keys c := by
  rw [← length_distinct_eq_card] at h
  refine ⟨_, (find?_eq_ok hkeys).2 ⟨required, h, rfl⟩, fun hnone c hc hfits => ?_,
    fun c hsome => isBest_of_isFirstBest (best?_eq_some hsome)⟩
  have hmem := mem_candidates_iff_fits.2 ⟨hc, hfits⟩
  rw [best?_eq_none hnone] at hmem
  exact List.not_mem_nil hmem

theorem find?_eq_error (hkeys : keys ≠ []) {why : Binary64.NoCeiling}
    (h : thresholds.required keys.toFinset.card = .error why) :
    find? containers used thresholds keys = .error why := by
  rw [← length_distinct_eq_card] at h
  simp [find?, hkeys, h, Except.map]

end Search

/-- **A search finds exactly the best container.** Without keys it finds nothing, and it fails only
if the thresholds give no number of keys to share. With such a number it finds nothing exactly if there
are no keys or no container fits, and a container exactly if this is the best one; every container
that is ranked has keys to divide by; and with thresholds that ask for more it finds nothing or the
same. -/
theorem find?_iff_isBest (containers : List Container) (used : List Nat) (thresholds : Thresholds)
    (keys : List String) :
    find? containers used thresholds [] = .ok none
    ∧ (∀ why, keys ≠ [] → thresholds.required keys.toFinset.card = .error why →
      find? containers used thresholds keys = .error why)
    ∧ ∀ required, thresholds.required keys.toFinset.card = .ok required →
      ∃ found, find? containers used thresholds keys = .ok found
        ∧ (found = none ↔ keys = [] ∨ ∀ c ∈ containers, ¬Fits used required keys c)
        ∧ (∀ c, found = some c ↔ keys ≠ [] ∧ IsBest containers used required keys c)
        ∧ (∀ c ∈ candidates containers used required keys, c.keys.length ≠ 0)
        ∧ ∀ stricter more, stricter.required keys.toFinset.card = .ok more → required ≤ more →
          find? containers used stricter keys = .ok none
            ∨ find? containers used stricter keys = .ok found := by
  refine ⟨rfl, fun why hkeys => find?_eq_error hkeys, fun required hrequired => ?_⟩
  have hpos : ∀ c ∈ candidates containers used required keys, c.keys.length ≠ 0 := fun c hc =>
    ((mem_candidates_iff_fits.1 hc).2.length_pos (Thresholds.one_le_of_required hrequired)).ne'
  by_cases hkeys : keys = []
  · subst hkeys
    exact ⟨none, rfl, by simp, by simp, hpos, fun _ _ _ _ => Or.inl rfl⟩
  obtain ⟨found, hfound, hnone, hsome⟩ := exists_find?_eq_ok containers used hkeys hrequired
  refine ⟨found, hfound, ⟨fun h => Or.inr (hnone h), fun h => ?_⟩,
    fun c => ⟨fun h => ⟨hkeys, hsome c h⟩, fun h => ?_⟩, hpos, fun stricter more hmore hle => ?_⟩
  · refine Option.eq_none_iff_forall_ne_some.2 fun c hc => ?_
    obtain ⟨place, hplace, hfits, -⟩ := hsome c hc
    exact h.resolve_left hkeys c (List.mem_of_getElem? hplace) hfits
  · cases hcase : found with
    | none =>
      obtain ⟨place, hplace, hfits, -⟩ := h.2
      exact absurd hfits (hnone hcase c (List.mem_of_getElem? hplace))
    | some pick => rw [(hsome pick hcase).unique h.2]
  · obtain ⟨picked, hpicked, -, hbest⟩ := exists_find?_eq_ok containers used hkeys hmore
    rw [hpicked]
    cases hcase : picked with
    | none => exact Or.inl rfl
    | some pick =>
      -- what fits the stricter thresholds fits the others, so they find something too
      obtain ⟨place, hplace, hfits, -⟩ := hbest pick hcase
      have hmem := List.mem_of_getElem? hplace
      cases hlax : found with
      | none => exact absurd ⟨hfits.unused, hle.trans hfits.enough⟩ (hnone hlax pick hmem)
      | some c =>
        rw [(hbest pick hcase).unique ((hsome c hlax).tighten hle hmem hfits)]
        exact Or.inr rfl

/-- Containers of which one has no keys, one has a key twice, one is in use, and one has too few. -/
def fiveContainers : List Container :=
  [⟨0, ["a"], []⟩, ⟨1, ["b"], ["k", "l", "k"]⟩, ⟨2, ["c"], ["k", "l"]⟩, ⟨3, ["d"], ["l", "k"]⟩,
    ⟨4, ["e"], ["l"]⟩]

/-- The tighter one of those that share both keys is found, or none if three keys are asked for. One
container is in use, and one shares a single key. -/
theorem find?_iff_isBest_fiveContainers :
    find? fiveContainers [2] {} ["k", "l", "k"] = .ok (some ⟨3, ["d"], ["l", "k"]⟩)
      ∧ IsBest fiveContainers [2] 1 ["k", "l", "k"] ⟨3, ["d"], ["l", "k"]⟩
      ∧ find? fiveContainers [2] { fewOverlap := 3 } ["k", "l", "k"] = .ok none := by
  have hdefault : ({} : Thresholds).required ["k", "l", "k"].toFinset.card = .ok 1 :=
    Thresholds.required_default_of_le (by decide)
  have hstricter : ({ fewOverlap := 3 } : Thresholds).required ["k", "l", "k"].toFinset.card
      = .ok 3 := rfl
  obtain ⟨found, hfound, -, hbest, -, htighter⟩ :=
    (find?_iff_isBest fiveContainers [2] {} ["k", "l", "k"]).2.2 1 hdefault
  have hfind : find? fiveContainers [2] {} ["k", "l", "k"] = .ok (some ⟨3, ["d"], ["l", "k"]⟩) := by
    decide +kernel
  have hsame : found = some ⟨3, ["d"], ["l", "k"]⟩ := Except.ok.inj (hfound.symm.trans hfind)
  refine ⟨hfind, ((hbest _).1 hsame).2, ?_⟩
  rcases htighter { fewOverlap := 3 } 3 hstricter (by decide) with hnone | hthree
  · exact hnone
  · rw [hsame] at hthree
    exact absurd hthree (by decide +kernel)

end BlockTheme.Recovery.Container
