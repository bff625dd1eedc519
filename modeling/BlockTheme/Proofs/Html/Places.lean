import BlockTheme.Html
import Mathlib.Data.List.Lex
import Mathlib.Data.List.Basic

/-!
# Places in markup

Every element of a markup has a place: the way that leads to it from child to child. One element
lies inside another if the way to it leads through the other. Places have an order, in which a way
comes after its beginnings, and otherwise the first turn to a later child comes later. This is
document order: with their places (`placedOf`) the elements of a markup stand in it
(`pairwise_placedOf`).
-/

namespace BlockTheme.Html

/-- A way through markup, by the numbers of the children that it leads to. -/
abbrev Place := List Nat

/-- The element that a way through a tree ends at. -/
def at? : Place → Html → Option Tag
  | _, .text _ _ => none
  | [], .element name attributes children => some ⟨name, attributes, children⟩
  | i :: rest, .element _ _ children => children[i]?.bind (at? rest)

/-- The element at a place of a markup. -/
def tagAt? (trees : List Html) : Place → Option Tag
  | [] => none
  | i :: rest => trees[i]?.bind (at? rest)

/-- What is at the one place lies inside what is at the other. -/
def LiesInside (inner outer : Place) : Prop := outer <+: inner ∧ outer ≠ inner

/-! ## Ways that go on -/

/-- A place in an element leads through one of its children. -/
theorem at?_cons {tree : Html} {tag : Tag} (h : at? [] tree = some tag) (i : Nat) (rest : Place) :
    at? (i :: rest) tree = tagAt? tag.children (i :: rest) := by
  cases tree with
  | text _ _ => simp [at?] at h
  | element name attributes children =>
    obtain rfl := Option.some.inj h
    rfl

/-- A way leads on from an element as it leads through its children. With the empty way down there
would be nothing to go on with, so that case is left out. -/
theorem at?_append {tree : Html} {tag : Tag} {place : Place} (h : at? place tree = some tag)
    {down : Place} (hdown : down ≠ []) : at? (place ++ down) tree = tagAt? tag.children down := by
  induction place generalizing tree with
  | nil =>
    obtain ⟨i, rest, rfl⟩ := List.exists_cons_of_ne_nil hdown
    exact at?_cons h i rest
  | cons i rest ih =>
    cases tree with
    | text _ _ => simp [at?] at h
    | element name attributes children =>
      rw [at?, Option.bind_eq_some_iff] at h
      obtain ⟨child, hchild, h⟩ := h
      rw [List.cons_append, at?, hchild, Option.bind_some, ih h]

/-- A place inside an element is found from the element. -/
theorem tagAt?_append {trees : List Html} {tag : Tag} {place : Place}
    (h : tagAt? trees place = some tag) {down : Place} (hdown : down ≠ []) :
    tagAt? trees (place ++ down) = tagAt? tag.children down := by
  cases place with
  | nil => simp [tagAt?] at h
  | cons i rest =>
    rw [tagAt?, Option.bind_eq_some_iff] at h
    obtain ⟨tree, htree, h⟩ := h
    rw [List.cons_append, tagAt?, htree, Option.bind_some, at?_append h hdown]

theorem LiesInside.trans {a b c : Place} (hab : LiesInside a b) (hbc : LiesInside b c) :
    LiesInside a c := by
  refine ⟨hbc.1.trans hab.1, fun heq => ?_⟩
  subst heq
  exact hab.2 (hab.1.eq_of_length (hab.1.length_le.antisymm hbc.1.length_le))

/-- What lies inside an element comes after it. -/
theorem LiesInside.lt {inner outer : Place} (h : LiesInside inner outer) : outer < inner := by
  obtain ⟨⟨down, rfl⟩, hne⟩ := h
  obtain ⟨i, rest, rfl⟩ := List.exists_cons_of_ne_nil (fun hnil : down = [] => hne (by simp [hnil]))
  induction outer with
  | nil => exact List.nil_lt_cons i rest
  | cons j outer ih =>
    rw [List.cons_append, List.cons_lt_cons_iff]
    exact Or.inr ⟨rfl, ih (by simp)⟩

/-! ## Elements with their places -/

mutual

/-- The elements of a tree with the ways to them. -/
def placed : Html → List (Place × Tag)
  | .text _ _ => []
  | .element name attributes children => ([], ⟨name, attributes, children⟩) :: placedOf 0 children

/-- The elements of trees with their places, where the first tree has a number. -/
def placedOf (number : Nat) : List Html → List (Place × Tag)
  | [] => []
  | tree :: rest => (placed tree).map (Prod.map (number :: ·) id) ++ placedOf (number + 1) rest

end

mutual

/-- The elements in document order, without their places. -/
theorem map_snd_placed : ∀ tree : Html, (placed tree).map Prod.snd = tags tree
  | .text _ _ => rfl
  | .element name attributes children => by
    rw [placed, tags, List.map_cons, map_snd_placedOf 0 children]

/-- Without their places these are the elements as they are listed. -/
theorem map_snd_placedOf (number : Nat) : ∀ trees : List Html,
    (placedOf number trees).map Prod.snd = tagsOf trees
  | [] => rfl
  | tree :: rest => by
    rw [placedOf, tagsOf, List.map_append, List.map_map, map_snd_placedOf (number + 1) rest,
      ← map_snd_placed tree]
    rfl

end

mutual

/-- An element stands at a place exactly if it is listed with it. By induction on the tree, along
with the children. -/
theorem mem_placed {place : Place} {tag : Tag} : ∀ {tree : Html},
    (place, tag) ∈ placed tree ↔ at? place tree = some tag
  | .text _ _ => by simp [placed, at?]
  | .element name attributes children => by
    rw [placed, List.mem_cons, mem_placedOf]
    cases place with
    | nil => simp [at?, eq_comm]
    | cons i rest => simp [at?, tagAt?]

/-- An element is listed with a place exactly if it stands there. The list goes through the trees in
document order and numbers them from `number` on, which is why the first step of a place is that
number more than the position of its tree. -/
theorem mem_placedOf {number : Nat} {place : Place} {tag : Tag} : ∀ {trees : List Html},
    (place, tag) ∈ placedOf number trees ↔
      ∃ i rest, place = (number + i) :: rest ∧ tagAt? trees (i :: rest) = some tag
  | [] => by simp [placedOf, tagAt?]
  | tree :: rest => by
    rw [placedOf, List.mem_append, List.mem_map, mem_placedOf]
    constructor
    · rintro (⟨⟨down, _⟩, hmem, heq⟩ | ⟨i, down, rfl, hat⟩)
      · obtain ⟨rfl, rfl⟩ := Prod.mk.inj heq
        exact ⟨0, down, rfl, mem_placed.1 hmem⟩
      · exact ⟨i + 1, down, by rw [Nat.add_assoc, Nat.add_comm 1 i], hat⟩
    · rintro ⟨i, down, rfl, hat⟩
      cases i with
      | zero => exact Or.inl ⟨(down, tag), mem_placed.2 hat, rfl⟩
      | succ i => exact Or.inr ⟨i, down, by rw [Nat.add_assoc, Nat.add_comm 1 i], hat⟩

end

theorem mem_placedOf_zero {trees : List Html} {place : Place} {tag : Tag} :
    (place, tag) ∈ placedOf 0 trees ↔ tagAt? trees place = some tag := by
  rw [mem_placedOf]
  simp only [Nat.zero_add]
  cases place with
  | nil => simp [tagAt?]
  | cons i rest => simp

/-- The listed elements of a markup are those that have a place in it. -/
theorem mem_tagsOf {trees : List Html} {tag : Tag} :
    tag ∈ tagsOf trees ↔ ∃ place, tagAt? trees place = some tag := by
  rw [← map_snd_placedOf 0 trees, List.mem_map]
  constructor
  · rintro ⟨⟨place, _⟩, hmem, rfl⟩
    exact ⟨place, mem_placedOf_zero.1 hmem⟩
  · rintro ⟨place, hat⟩
    exact ⟨(place, tag), mem_placedOf_zero.2 hat, rfl⟩

/-- The elements inside an element are those whose places lie inside its place. This is how the keys
of a container, which are collected from the tags inside it, are tied to the leaves that stand below
its wrapper. -/
theorem mem_inside {trees : List Html} {outer : Place} {tag inner : Tag}
    (h : tagAt? trees outer = some tag) :
    inner ∈ tag.inside ↔ ∃ place, LiesInside place outer ∧ tagAt? trees place = some inner := by
  rw [Tag.inside, mem_tagsOf]
  constructor
  · rintro ⟨down, hat⟩
    have hdown : down ≠ [] := by
      rintro rfl
      simp [tagAt?] at hat
    exact ⟨outer ++ down, ⟨List.prefix_append _ _, by simp [hdown]⟩,
      (tagAt?_append h hdown).trans hat⟩
  · rintro ⟨place, ⟨⟨down, rfl⟩, hne⟩, hat⟩
    have hdown : down ≠ [] := fun hnil => hne (by simp [hnil])
    exact ⟨down, (tagAt?_append h hdown).symm.trans hat⟩

mutual

/-- The places rise in document order, which is the order of the lists of numbers that they are. -/
theorem pairwise_placed : ∀ tree : Html, (placed tree).Pairwise fun a b => a.1 < b.1
  | .text _ _ => List.Pairwise.nil
  | .element name attributes children => by
    rw [placed, List.pairwise_cons]
    refine ⟨?_, pairwise_placedOf 0 children⟩
    rintro ⟨place, tag⟩ hmem
    obtain ⟨i, rest, rfl, -⟩ := mem_placedOf.1 hmem
    exact List.nil_lt_cons _ _

/-- **Elements are listed in document order.** By induction on the trees: what is in a child comes
behind its element and before the next child. -/
theorem pairwise_placedOf (number : Nat) : ∀ trees : List Html,
    (placedOf number trees).Pairwise fun a b => a.1 < b.1
  | [] => List.Pairwise.nil
  | tree :: rest => by
    rw [placedOf, List.pairwise_append]
    refine ⟨?_, pairwise_placedOf (number + 1) rest, ?_⟩
    · rw [List.pairwise_map]
      exact (pairwise_placed tree).imp fun hlt => List.cons_lt_cons_iff.2 (Or.inr ⟨rfl, hlt⟩)
    · -- a way into this tree comes before one into a later tree
      rintro _ ha ⟨place, tag⟩ hb
      obtain ⟨⟨down, _⟩, -, rfl⟩ := List.mem_map.1 ha
      obtain ⟨i, rest, rfl, -⟩ := mem_placedOf.1 hb
      exact List.cons_lt_cons_iff.2 (Or.inl (by omega))

end

end BlockTheme.Html
