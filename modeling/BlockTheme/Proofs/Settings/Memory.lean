import BlockTheme.Proofs.Settings.Members
import BlockTheme.Settings.Heap
import Mathlib.Data.List.Perm.Subperm

/-!
# Data in memory

When a value in memory stands for data (`Heap.Holds`), and which objects it takes for that. Objects
that a value does not take may change without changing what it stands for (`Heap.Holds.congr`). Data
for which objects are made is held by these objects, each of them in one place (`Heap.holds_build`),
and what is held can be seen from outside (`Heap.Holds.data?_eq`).
-/

namespace BlockTheme.Settings

namespace Heap

/-! ## What a value stands for -/

mutual

/-- A value stands for data, by objects at these places, one after the other. An object that is used
twice has its place among them twice. -/
inductive Holds (heap : Heap) : Data → Value → List Nat → Prop where
  | atom (a : Atom) : Holds heap (.atom a) (.atom a) []
  | list {place : Nat} {items : List Data} {values : List Value} {inner : List Nat}
      (hobject : heap[place]? = some (.list values)) (hitems : HoldsItems heap items values inner) :
      Holds heap (.list items) (.object place) (place :: inner)
  | record {place : Nat} {members : Members Data} {values : Members Value} {inner : List Nat}
      (hobject : heap[place]? = some (.record values))
      (hmembers : HoldsMembers heap members values inner) :
      Holds heap (.record members) (.object place) (place :: inner)

/-- Values stand for items one by one. The objects of one are none of another, or they are listed
twice. -/
inductive HoldsItems (heap : Heap) : List Data → List Value → List Nat → Prop where
  | nil : HoldsItems heap [] [] []
  | cons {v : Data} {value : Value} {own : List Nat} {rest : List Data} {values : List Value}
      {more : List Nat} (hvalue : Holds heap v value own) (hrest : HoldsItems heap rest values more) :
      HoldsItems heap (v :: rest) (value :: values) (own ++ more)

/-- The same for members, which have the keys that the data has. -/
inductive HoldsMembers (heap : Heap) : Members Data → Members Value → List Nat → Prop where
  | nil : HoldsMembers heap [] [] []
  | cons {key : Atom} {v : Data} {value : Value} {own : List Nat} {rest : Members Data}
      {values : Members Value} {more : List Nat} (hvalue : Holds heap v value own)
      (hrest : HoldsMembers heap rest values more) :
      HoldsMembers heap ((key, v) :: rest) ((key, value) :: values) (own ++ more)

end

variable {heap later : Heap} {v w : Data} {value : Value} {places others : List Nat}
  {items : List Data} {members : Members Data} {place : Nat} {object : Object}

mutual

/-- **Memory settles by which objects a value stands for something.** It has one object at a place, and
that has the same items or members whatever it is taken for. -/
theorem Holds.places_eq {v w : Data} {value : Value} {places others : List Nat}
    (h : heap.Holds v value places) (h' : heap.Holds w value others) : places = others := by
  cases h with
  | atom a =>
    cases h'
    rfl
  | list hobject hitems =>
    cases h' with
    | list hobject' hitems' =>
      cases hobject.symm.trans hobject'
      rw [hitems.places_eq hitems']
    | record hobject' hmembers' => cases hobject.symm.trans hobject'
  | record hobject hmembers =>
    cases h' with
    | list hobject' hitems' => cases hobject.symm.trans hobject'
    | record hobject' hmembers' =>
      cases hobject.symm.trans hobject'
      rw [hmembers.places_eq hmembers']

theorem HoldsItems.places_eq {items others : List Data} {values : List Value} {places more : List Nat}
    (h : heap.HoldsItems items values places) (h' : heap.HoldsItems others values more) :
    places = more := by
  cases h with
  | nil =>
    cases h'
    rfl
  | cons hvalue hrest =>
    cases h' with
    | cons hvalue' hrest' => rw [hvalue.places_eq hvalue', hrest.places_eq hrest']

theorem HoldsMembers.places_eq {members others : Members Data} {values : Members Value}
    {places more : List Nat} (h : heap.HoldsMembers members values places)
    (h' : heap.HoldsMembers others values more) : places = more := by
  cases h with
  | nil =>
    cases h'
    rfl
  | cons hvalue hrest =>
    cases h' with
    | cons hvalue' hrest' => rw [hvalue.places_eq hvalue', hrest.places_eq hrest']

end

/-! ## Changes of memory -/

mutual

/-- Objects are taken from memory. -/
theorem Holds.lt_length {v : Data} {value : Value} {places : List Nat} (h : heap.Holds v value places) :
    ∀ p ∈ places, p < heap.length := by
  cases h with
  | atom a => exact fun p hp => absurd hp List.not_mem_nil
  | list hobject hitems =>
    exact List.forall_mem_cons.2 ⟨(List.getElem?_eq_some_iff.1 hobject).1, hitems.lt_length⟩
  | record hobject hmembers =>
    exact List.forall_mem_cons.2 ⟨(List.getElem?_eq_some_iff.1 hobject).1, hmembers.lt_length⟩

theorem HoldsItems.lt_length {items : List Data} {values : List Value} {places : List Nat}
    (h : heap.HoldsItems items values places) : ∀ p ∈ places, p < heap.length := by
  cases h with
  | nil => exact fun p hp => absurd hp List.not_mem_nil
  | cons hvalue hrest => exact List.forall_mem_append.2 ⟨hvalue.lt_length, hrest.lt_length⟩

theorem HoldsMembers.lt_length {members : Members Data} {values : Members Value} {places : List Nat}
    (h : heap.HoldsMembers members values places) : ∀ p ∈ places, p < heap.length := by
  cases h with
  | nil => exact fun p hp => absurd hp List.not_mem_nil
  | cons hvalue hrest => exact List.forall_mem_append.2 ⟨hvalue.lt_length, hrest.lt_length⟩

end

mutual

/-- **What a value stands for depends on the objects that it takes for it, and on no other ones.**
By induction on the data, along with items and members. -/
theorem Holds.congr {v : Data} {value : Value} {places : List Nat} (h : heap.Holds v value places)
    (hsame : ∀ p ∈ places, later[p]? = heap[p]?) : later.Holds v value places := by
  cases h with
  | atom a => exact .atom a
  | list hobject hitems =>
    obtain ⟨hfirst, hinner⟩ := List.forall_mem_cons.1 hsame
    exact .list (hfirst.trans hobject) (hitems.congr hinner)
  | record hobject hmembers =>
    obtain ⟨hfirst, hinner⟩ := List.forall_mem_cons.1 hsame
    exact .record (hfirst.trans hobject) (hmembers.congr hinner)

/-- Items are held by other memory that has the same objects at their places. By induction along
with data and members. -/
theorem HoldsItems.congr {items : List Data} {values : List Value} {places : List Nat}
    (h : heap.HoldsItems items values places) (hsame : ∀ p ∈ places, later[p]? = heap[p]?) :
    later.HoldsItems items values places := by
  cases h with
  | nil => exact .nil
  | cons hvalue hrest =>
    obtain ⟨hown, hmore⟩ := List.forall_mem_append.1 hsame
    exact .cons (hvalue.congr hown) (hrest.congr hmore)

theorem HoldsMembers.congr {members : Members Data} {values : Members Value} {places : List Nat}
    (h : heap.HoldsMembers members values places) (hsame : ∀ p ∈ places, later[p]? = heap[p]?) :
    later.HoldsMembers members values places := by
  cases h with
  | nil => exact .nil
  | cons hvalue hrest =>
    obtain ⟨hown, hmore⟩ := List.forall_mem_append.1 hsame
    exact .cons (hvalue.congr hown) (hrest.congr hmore)

end

/-- Objects stay where they are when memory grows. -/
theorem getElem?_of_grown (hgrown : heap <+: later) {p : Nat} (hp : p < heap.length) :
    later[p]? = heap[p]? := by
  obtain ⟨new, rfl⟩ := hgrown
  exact List.getElem?_append_left hp

/-- Data that are held stay held when objects are added to memory, as these get places of their own.
-/
theorem Holds.mono (h : heap.Holds v value places) (hgrown : heap <+: later) :
    later.Holds v value places :=
  h.congr fun p hp => getElem?_of_grown hgrown (h.lt_length p hp)

/-- An object may be overwritten that a value does not take. -/
theorem Holds.set (h : heap.Holds v value places) (hplace : place ∉ places) (object : Object) :
    Holds (heap.set place object) v value places := by
  refine h.congr fun p hp => List.getElem?_set_ne ?_
  rintro rfl
  exact hplace hp

/-! ## New objects -/

/-- A value for which memory has grown takes new objects only, each of them once. -/
structure Brings (heap later : Heap) (v : Data) (value : Value) (places : List Nat) : Prop where
  grown : heap <+: later
  holds : later.Holds v value places
  nodup : places.Nodup
  isNew : ∀ p ∈ places, heap.length ≤ p

/-- What is built one after the other takes different objects. -/
theorem nodup_append_of_lt {places more : List Nat} {bound : Nat} (hplaces : places.Nodup)
    (hmore : more.Nodup) (hlow : ∀ p ∈ places, p < bound) (hhigh : ∀ p ∈ more, bound ≤ p) :
    (places ++ more).Nodup := by
  refine List.nodup_append.2 ⟨hplaces, hmore, fun p hp q hq heq => ?_⟩
  have hp' := hlow p hp
  have hq' := hhigh q hq
  omega

/-- New objects have room between what was there and the object that refers to them. -/
theorem nodup_cons_length (hlow : ∀ p ∈ places, p < heap.length) (hplaces : places.Nodup) :
    (heap.length :: places).Nodup :=
  List.nodup_cons.2 ⟨fun hmem => Nat.lt_irrefl _ (hlow _ hmem), hplaces⟩

mutual

/-- **Data for which objects are made are held by them,** and each of them is used once. The new
objects stand behind all old ones, which stay as they are. -/
theorem holds_build (heap : Heap) : ∀ v : Data,
    ∃ places, heap.Brings (heap.build v).2 v (heap.build v).1 places
  | .atom a => ⟨[], List.prefix_rfl, .atom a, List.nodup_nil, fun p hp => absurd hp List.not_mem_nil⟩
  | .list items => by
    -- the items stand first, each in places of its own, and the list gets the next place
    obtain ⟨inner, hgrown, hitems, hnodup, hnew⟩ := holds_buildItems heap items
    rcases hbuilt : heap.buildItems items with ⟨values, built⟩
    rw [hbuilt] at hgrown hitems
    have hlater : (heap.build (.list items)) = (.object built.length, built ++ [.list values]) := by
      rw [build, hbuilt]
      rfl
    rw [hlater]
    have hkept : built <+: built ++ [.list values] := List.prefix_append _ _
    refine ⟨built.length :: inner, hgrown.trans hkept, .list (by simp) (hitems.congr fun p hp =>
      getElem?_of_grown hkept (hitems.lt_length p hp)), nodup_cons_length hitems.lt_length hnodup, ?_⟩
    exact List.forall_mem_cons.2 ⟨hgrown.length_le, hnew⟩
  | .record members => by
    -- in the same way for a record
    obtain ⟨inner, hgrown, hmembers, hnodup, hnew⟩ := holds_buildMembers heap members
    rcases hbuilt : heap.buildMembers members with ⟨values, built⟩
    rw [hbuilt] at hgrown hmembers
    have hlater : (heap.build (.record members))
        = (.object built.length, built ++ [.record values]) := by
      rw [build, hbuilt]
      rfl
    rw [hlater]
    have hkept : built <+: built ++ [.record values] := List.prefix_append _ _
    refine ⟨built.length :: inner, hgrown.trans hkept, .record (by simp) (hmembers.congr fun p hp =>
      getElem?_of_grown hkept (hmembers.lt_length p hp)), nodup_cons_length hmembers.lt_length hnodup, ?_⟩
    exact List.forall_mem_cons.2 ⟨hgrown.length_le, hnew⟩

/-- Items are built one after the other, from new objects. What is built later does not touch what
is there, so the earlier items still stand for what they did. -/
theorem holds_buildItems (heap : Heap) : ∀ items : List Data,
    ∃ places, heap <+: (heap.buildItems items).2
      ∧ (heap.buildItems items).2.HoldsItems items (heap.buildItems items).1 places
      ∧ places.Nodup ∧ ∀ p ∈ places, heap.length ≤ p
  | [] => ⟨[], List.prefix_rfl, .nil, List.nodup_nil, fun p hp => absurd hp List.not_mem_nil⟩
  | v :: rest => by
    obtain ⟨own, hvalue⟩ := holds_build heap v
    obtain ⟨more, hgrown, hrest, hnodup, hnew⟩ := holds_buildItems (heap.build v).2 rest
    refine ⟨own ++ more, hvalue.grown.trans hgrown, .cons (hvalue.holds.mono hgrown) hrest,
      nodup_append_of_lt hvalue.nodup hnodup hvalue.holds.lt_length hnew, ?_⟩
    exact List.forall_mem_append.2
      ⟨hvalue.isNew, fun p hp => Nat.le_trans hvalue.grown.length_le (hnew p hp)⟩

/-- Members are built one after the other, like items. Their keys are atoms and need no objects. -/
theorem holds_buildMembers (heap : Heap) : ∀ members : List (Atom × Data),
    ∃ places, heap <+: (heap.buildMembers members).2
      ∧ (heap.buildMembers members).2.HoldsMembers members (heap.buildMembers members).1 places
      ∧ places.Nodup ∧ ∀ p ∈ places, heap.length ≤ p
  | [] => ⟨[], List.prefix_rfl, .nil, List.nodup_nil, fun p hp => absurd hp List.not_mem_nil⟩
  | (key, v) :: rest => by
    obtain ⟨own, hvalue⟩ := holds_build heap v
    obtain ⟨more, hgrown, hrest, hnodup, hnew⟩ := holds_buildMembers (heap.build v).2 rest
    refine ⟨own ++ more, hvalue.grown.trans hgrown, .cons (hvalue.holds.mono hgrown) hrest,
      nodup_append_of_lt hvalue.nodup hnodup hvalue.holds.lt_length hnew, ?_⟩
    exact List.forall_mem_append.2
      ⟨hvalue.isNew, fun p hp => Nat.le_trans hvalue.grown.length_le (hnew p hp)⟩

end

/-! ## Items and members, one by one -/

section Each

variable {m : Type → Type} [Monad m] [LawfulMonad m] {β : Type} {f : Data → m β} {g : Value → m β}

/-- Something is done with the values as with the items that they stand for. It is enough to know
this of each value, for which the places are some of those of the list. -/
theorem HoldsItems.mapM_eq {values : List Value} (h : heap.HoldsItems items values places)
    (hsame : ∀ {v value own}, heap.Holds v value own → own.Sublist places → g value = f v) :
    values.mapM g = items.mapM f := by
  induction items generalizing values places with
  | nil =>
    cases h
    rfl
  | cons v rest ih =>
    cases h with
    | cons hvalue hrest =>
      rw [List.mapM_cons, List.mapM_cons, hsame hvalue (List.sublist_append_left _ _),
        ih hrest fun h hown => hsame h (hown.trans (List.sublist_append_right _ _))]

/-- The same for members, of which the keys are seen as well. They are the same in both, and in the
same order. -/
theorem HoldsMembers.mapM_eq {values : Members Value} {f : Atom × Data → m β}
    {g : Atom × Value → m β} (h : heap.HoldsMembers members values places)
    (hsame : ∀ {key v value own}, heap.Holds v value own → own.Sublist places →
      g (key, value) = f (key, v)) :
    values.mapM g = members.mapM f := by
  induction members generalizing values places with
  | nil =>
    cases h
    rfl
  | cons member rest ih =>
    cases h with
    | cons hvalue hrest =>
      rw [List.mapM_cons, List.mapM_cons, hsame hvalue (List.sublist_append_left _ _),
        ih hrest fun h hown => hsame h (hown.trans (List.sublist_append_right _ _))]

end Each

/-- What a key finds, in memory and in the data that is held there. -/
inductive HoldsOption (heap : Heap) : Option Data → Option Value → List Nat → Prop where
  | none : HoldsOption heap none none []
  | some {v : Data} {value : Value} {own : List Nat} (h : heap.Holds v value own) :
      HoldsOption heap (some v) (some value) own

/-- **Of the objects that members take, some belong to the value under a key.** Where another value
is put there, in a memory in which the other objects are as they were, its objects come in their
stead. -/
theorem HoldsMembers.focus {values : Members Value} (h : heap.HoldsMembers members values places)
    (key : Atom) :
    ∃ front own back, places = front ++ (own ++ back)
      ∧ heap.HoldsOption (members.get? key) (values.get? key) own
      ∧ ∀ {later : Heap} {w : Data} {new : Value} {others : List Nat},
        (∀ p ∈ front ++ back, later[p]? = heap[p]?) → later.Holds w new others →
          later.HoldsMembers (members.set key w) (values.set key new) (front ++ (others ++ back)) := by
  induction members generalizing values places with
  | nil =>
    cases h
    refine ⟨[], [], [], rfl, .none, fun _ hnew => ?_⟩
    rw [List.nil_append]
    exact .cons hnew .nil
  | cons member rest ih =>
    cases h with
    | @cons k v value own _ values more hvalue hrest =>
      by_cases hkey : k.isSame key = true
      · refine ⟨[], own, more, rfl, ?_, fun hsame hnew => ?_⟩
        · rw [Members.get?_cons, Members.get?_cons, if_pos hkey, if_pos hkey]
          exact .some hvalue
        · rw [Members.set, Members.set, if_pos hkey, if_pos hkey, List.nil_append]
          exact .cons hnew (hrest.congr hsame)
      · obtain ⟨front, found, back, rfl, hfound, hput⟩ := ih hrest
        refine ⟨own ++ front, found, back, by rw [List.append_assoc], ?_, fun hsame hnew => ?_⟩
        · rwa [Members.get?_cons, Members.get?_cons, if_neg hkey, if_neg hkey]
        · rw [Members.set, Members.set, if_neg hkey, if_neg hkey, List.append_assoc]
          rw [List.append_assoc] at hsame
          obtain ⟨hown, hmore⟩ := List.forall_mem_append.1 hsame
          exact .cons (hvalue.congr hown) (hput hmore hnew)

/-! ## Seeing what is held -/

/-- Looking up what is always found finds everything. -/
theorem mapM_some {α : Type} (items : List α) : items.mapM some = some items :=
  List.mapM_pure.trans (congrArg some items.map_id')

/-- **What a value stands for is seen by looking as many levels deep as it takes objects.** So
memory determines the data, and there is no second value that it could stand for. -/
theorem Holds.data?_eq {depth : Nat} (h : heap.Holds v value places) (hdepth : places.length ≤ depth) :
    heap.data? depth value = some v := by
  -- on the depth: one level of objects takes one place at least, so as many levels as places are
  -- enough
  induction depth generalizing v value places with
  | zero =>
    cases h with
    | atom a => rfl
    | list | record => simp at hdepth
  | succ depth ih =>
    cases h with
    | atom a => rfl
    | @list place items values inner hobject hitems =>
      have hinner := Nat.le_of_succ_le_succ hdepth
      have hseen : values.mapM (heap.data? depth) = items.mapM some :=
        hitems.mapM_eq fun h hown => ih h (Nat.le_trans hown.length_le hinner)
      rw [data?, hobject]
      dsimp only
      rw [hseen, mapM_some, Option.map_some]
    | @record place members values inner hobject hmembers =>
      have hinner := Nat.le_of_succ_le_succ hdepth
      have hseen : values.mapM
          (fun member => (heap.data? depth member.2).map fun v => (member.1, v)) = members.mapM some :=
        hmembers.mapM_eq fun h hown => by rw [ih h (Nat.le_trans hown.length_le hinner), Option.map_some]
      rw [data?, hobject]
      dsimp only
      rw [hseen, mapM_some, Option.map_some]

/-- If each object is taken once, then memory is deep enough to see all of them. -/
theorem Holds.data?_length (h : heap.Holds v value places) (hnodup : places.Nodup) :
    heap.data? heap.length value = some v := by
  refine h.data?_eq ?_
  have hrange : places ⊆ List.range heap.length := fun p hp => List.mem_range.2 (h.lt_length p hp)
  have hlength := (hnodup.subperm hrange).length_le
  rwa [List.length_range] at hlength

end Heap

end BlockTheme.Settings
