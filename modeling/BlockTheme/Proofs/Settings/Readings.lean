import BlockTheme.Proofs.Settings.Casts
import BlockTheme.Proofs.Settings.Memory
import BlockTheme.Settings

/-!
# The same in memory and as data

Whatever looks at values sees the same in memory as in the data that is held there: look-ups
(`Heap.Holds.follow?`), the texts that show values (`Heap.Holds.shown_eq`), and casts
(`Heap.Holds.toKind`). What they give as values is held again, by objects of the value that was looked
at. Only for being shown it matters that no object is used twice: a value that was inside itself would
be shown in another way.
-/

namespace BlockTheme.Settings

open Text (Glyphs)

theorem Data.reading_view (v : Data) : reading.view v = v.view := rfl

namespace Heap

variable {heap : Heap} {v : Data} {value : Value} {places around : List Nat}

/-! ## Looking at a value -/

/-- Values in memory are looked at through the objects that they lead to. -/
theorem reading_view (heap : Heap) (value : Value) : heap.reading.view value = heap.view value := rfl

/-- What a value in memory shows of itself, and what data shows of itself that it stands for. -/
inductive HoldsView (heap : Heap) : View Data → View Value → List Nat → Prop where
  | atom (a : Atom) : HoldsView heap (.atom a) (.atom a) []
  | list {items : List Data} {values : List Value} {inner : List Nat}
      (hitems : heap.HoldsItems items values inner) : HoldsView heap (.list items) (.list values) inner
  | record {members : Members Data} {values : Members Value} {inner : List Nat}
      (hmembers : heap.HoldsMembers members values inner) :
      HoldsView heap (.record members) (.record values) inner

theorem view_of_getElem? {place : Nat} {object : Object} (hobject : heap[place]? = some object) :
    heap.view (.object place) = object.view := by
  rw [view, hobject]
  rfl

/-- **What is held looks like what it stands for.** Both sides are looked at one level deep, and
what lies inside is held in its turn. -/
theorem Holds.view (h : heap.Holds v value places) :
    ∃ inner, heap.HoldsView v.view (heap.view value) inner ∧ inner.Subperm places := by
  cases h with
  | atom a => exact ⟨[], .atom a, List.nil_subperm⟩
  | list hobject hitems =>
    rw [view_of_getElem? hobject]
    exact ⟨_, .list hitems, (List.sublist_cons_self _ _).subperm⟩
  | record hobject hmembers =>
    rw [view_of_getElem? hobject]
    exact ⟨_, .record hmembers, (List.sublist_cons_self _ _).subperm⟩

variable {w : View Data} {wvalue : View Value}

/-- There are as many values as items, so that there are none of the ones if there are none of the
others. -/
theorem HoldsItems.isEmpty_eq {items : List Data} {values : List Value}
    (h : heap.HoldsItems items values places) : values.isEmpty = items.isEmpty := by
  cases h <;> rfl

theorem HoldsMembers.isEmpty_eq {members : Members Data} {values : Members Value}
    (h : heap.HoldsMembers members values places) : values.isEmpty = members.isEmpty := by
  cases h <;> rfl

theorem HoldsView.kind_eq (h : heap.HoldsView w wvalue places) : wvalue.kind = w.kind := by
  cases h with
  | atom a =>
    cases a with
    | number n => cases n <;> rfl
    | _ => rfl
  | _ => rfl

theorem HoldsView.isGiven_eq (h : heap.HoldsView w wvalue places) : wvalue.isGiven = w.isGiven := by
  cases h with
  | atom a => rfl
  | list hitems => rw [View.isGiven, View.isGiven, hitems.isEmpty_eq]
  | record hmembers => rw [View.isGiven, View.isGiven, hmembers.isEmpty_eq]

/-! ## Looking up -/

/-- A value stands for data by some of the objects at places. -/
def HoldsWithin (heap : Heap) (places : List Nat) (v : Data) (value : Value) : Prop :=
  ∃ own, heap.Holds v value own ∧ own.Subperm places

theorem HoldsWithin.mono {others : List Nat} (h : heap.HoldsWithin places v value)
    (hsub : places.Subperm others) : heap.HoldsWithin others v value := by
  obtain ⟨own, hheld, hown⟩ := h
  exact ⟨own, hheld, hown.trans hsub⟩

/-- An atom stands for itself, without any object. -/
theorem holdsWithin_atom (a : Atom) : heap.HoldsWithin places (.atom a) (.atom a) :=
  ⟨[], .atom a, List.nil_subperm⟩

/-- A key finds in memory what it finds in the data. -/
theorem HoldsMembers.get? {members : Members Data} {values : Members Value}
    (h : heap.HoldsMembers members values places) (key : Atom) :
    Option.Rel (heap.HoldsWithin places) (members.get? key) (values.get? key) := by
  obtain ⟨front, own, back, rfl, hfound, -⟩ := h.focus key
  generalize members.get? key = found at hfound
  generalize values.get? key = foundValue at hfound
  cases hfound with
  | none => exact .none
  | some hvalue =>
    have hown : (own ++ back).Sublist (front ++ (own ++ back)) := List.sublist_append_right _ _
    exact .some ⟨own, hvalue, ((List.sublist_append_left own back).trans hown).subperm⟩

/-- **A chain of keys leads to the same in memory as in the data.** By induction on the chain; what
is found is held by some of the objects around it. -/
theorem HoldsWithin.follow? (h : heap.HoldsWithin places v value) (keys : List Glyphs) :
    Option.Rel (heap.HoldsWithin places) (Data.reading.follow? keys v)
      (heap.reading.follow? keys value) := by
  induction keys generalizing v value with
  | nil => exact .some h
  | cons key rest ih =>
    obtain ⟨own, hheld, hown⟩ := h
    obtain ⟨inner, hview, hinner⟩ := hheld.view
    rw [Reading.follow?, Reading.follow?, Data.reading_view, reading_view]
    generalize v.view = w at hview
    generalize heap.view value = wvalue at hview
    cases hview with
    | atom | list => exact .none
    | @record members values _ hmembers =>
      refine ih ?_
      -- a key that is missing is as good as one whose value is null
      have hfound := hmembers.get? (.text key)
      generalize members.get? (.text key) = found at hfound
      generalize values.get? (.text key) = foundValue at hfound
      cases hfound with
      | none => exact holdsWithin_atom .null
      | some hnext => exact hnext.mono (hinner.trans hown)

/-- What is found at a path in memory is what is found in the data, unless it is null. By induction
on the keys, for `follow?` goes the same way in both. -/
theorem Holds.lookUp? (h : heap.Holds v value places) (path : Glyphs) :
    Option.Rel (heap.HoldsWithin places) (Data.reading.lookUp? path v)
      (heap.reading.lookUp? path value) := by
  have hfound := HoldsWithin.follow? ⟨places, h, List.Subperm.refl _⟩ (keysOf path)
  unfold Reading.lookUp?
  generalize Data.reading.follow? (keysOf path) v = found at hfound
  generalize heap.reading.follow? (keysOf path) value = foundValue at hfound
  cases hfound with
  | none => exact .none
  | @some w wvalue hheld =>
    obtain ⟨own, hown, hsub⟩ := hheld
    obtain ⟨inner, hview, -⟩ := hown.view
    rw [Option.filter_some, Option.filter_some, Data.reading_view, reading_view, hview.kind_eq]
    split
    · exact .some ⟨own, hown, hsub⟩
    · exact .none

/-! ## Showing -/

/-- A value is shown in memory as in the data, if that is so for what lies right inside it, and it is
not among the values around it. -/
theorem Holds.literalWith_eq {around' : List Nat} {f : Data → Except Unshown (List Char)}
    {g : Value → Except Unshown (List Char)} (h : heap.Holds v value places)
    (houtside : ∀ p ∈ places, p ∉ around)
    (hinner : ∀ {w wvalue own}, heap.Holds w wvalue own → own.Sublist places.tail → g wvalue = f w) :
    heap.reading.literalWith around g value = Data.reading.literalWith around' f v := by
  have hatom : ∀ a, g (.atom a) = f (.atom a) := fun a => hinner (.atom a) (List.nil_sublist _)
  cases h with
  | atom a => rfl
  | @list place items values inner hobject hitems =>
    -- an object that is not among those around it is not shown as a loop
    have hplace : around.contains place = false := by
      simpa using houtside place List.mem_cons_self
    have hview : heap.reading.view (.object place) = .list values := view_of_getElem? hobject
    have hshown : values.mapM g = items.mapM f := hitems.mapM_eq hinner
    have hidentity : heap.reading.identity? (.object place) = some place := rfl
    simp only [Reading.literalWith, hview, hidentity, Option.any_some, hplace, hshown]
    rfl
  | @record place members values inner hobject hmembers =>
    have hplace : around.contains place = false := by
      simpa using houtside place List.mem_cons_self
    have hview : heap.reading.view (.object place) = .record values := view_of_getElem? hobject
    have hidentity : heap.reading.identity? (.object place) = some place := rfl
    have hshown : values.mapM (fun (key, v) => do
          return (← g (heap.reading.ofAtom key)) ++ ':' :: ' ' :: (← g v))
        = members.mapM fun (key, v) => do
          return (← f (Data.reading.ofAtom key)) ++ ':' :: ' ' :: (← f v) :=
      hmembers.mapM_eq fun {key w wvalue own} hheld hown => by
        have hkey : g (heap.reading.ofAtom key) = f (Data.reading.ofAtom key) := hatom key
        simp only [hkey, hinner hheld hown]
    simp only [Reading.literalWith, hview, hidentity, Option.any_some, hplace]
    rw [hshown]
    rfl

/-- **A value is shown in memory as in the data** if no object is used twice. Then no value is found
inside itself, which is where showing memory could differ from showing data. -/
theorem Holds.literal_eq {room : Nat} {around' : List Nat} (h : heap.Holds v value places)
    (hnodup : places.Nodup) (houtside : ∀ p ∈ places, p ∉ around) :
    heap.reading.literal room around value = Data.reading.literal room around' v := by
  induction room generalizing v value places around around' with
  | zero => exact h.literalWith_eq houtside fun _ _ => rfl
  | succ room ih =>
    refine h.literalWith_eq houtside fun {w wvalue own} hheld hown => ?_
    refine ih hheld (hnodup.tail.sublist hown) fun p hp => ?_
    cases h with
    | atom a => exact absurd (hown.subset hp) List.not_mem_nil
    | list | record =>
      -- what lies inside the object is neither the object nor outside of it
      obtain ⟨hplace, -⟩ := List.nodup_cons.1 hnodup
      have hinner := hown.subset hp
      refine List.not_mem_cons_of_ne_of_not_mem ?_ (houtside p (List.mem_cons_of_mem _ hinner))
      rintro rfl
      exact hplace hinner

/-- As a text a value looks as its data do. Data have no loops, and this is where it matters that no
object is used twice. -/
theorem Holds.shown_eq (h : heap.Holds v value places) (hnodup : places.Nodup) (room : Nat) :
    heap.reading.shown room value = Data.reading.shown room v := by
  have hliteral : heap.reading.literal room [] value = Data.reading.literal room [] v :=
    h.literal_eq hnodup fun _ _ => List.not_mem_nil
  obtain ⟨inner, hview, -⟩ := h.view
  rw [Reading.shown, Reading.shown, hliteral, Data.reading_view, reading_view]
  generalize v.view = w at hview
  generalize heap.view value = wvalue at hview
  cases hview with
  | atom a => cases a <;> rfl
  | list | record => rfl

/-! ## Casting -/

/-- Casts look at a value from outside, and both sides look the same: a cast to a flag gives the
same. -/
theorem HoldsView.toFlag_eq (h : heap.HoldsView w wvalue places) :
    Cast.toFlag wvalue = Cast.toFlag w := by
  have hgiven := h.isGiven_eq
  cases h with
  | atom a => cases a <;> rfl
  | list | record => exact hgiven

theorem HoldsView.toInteger_eq (h : heap.HoldsView w wvalue places) :
    Cast.toInteger wvalue = Cast.toInteger w := by
  cases h with
  | atom a =>
    cases a with
    | number n =>
      cases n with
      | int n => rfl
      | float x => cases x <;> rfl
    | _ => rfl
  | list | record => rfl

theorem HoldsView.toFloat_eq (h : heap.HoldsView w wvalue places) :
    Cast.toFloat wvalue = Cast.toFloat w := by
  cases h with
  | atom a =>
    cases a with
    | number n => cases n <;> rfl
    | _ => rfl
  | list | record => rfl

/-- Values that are held one by one are held as items, by the objects of them all. -/
theorem holdsItems_atoms (as : List Atom) :
    heap.HoldsItems (as.map .atom) (as.map .atom) [] := by
  induction as with
  | nil => exact .nil
  | cons a rest ih => exact .cons (.atom a) ih

/-- Members have the keys of their data, in the same order. -/
theorem HoldsMembers.keys_eq {members : Members Data} {values : Members Value}
    (h : heap.HoldsMembers members values places) :
    values.map Prod.fst = members.map Prod.fst := by
  induction members generalizing values places with
  | nil =>
    cases h
    rfl
  | cons member rest ih =>
    cases h with
    | cons hvalue hrest => rw [List.map_cons, List.map_cons, ih hrest]

/-- A value runs through the same values in memory as in the data. The objects of these are some of
those of the value, each once. -/
theorem Holds.itemsOf? (h : heap.Holds v value places) :
    Option.Rel (fun items values => ∃ own, heap.HoldsItems items values own ∧ own.Subperm places)
      (Cast.itemsOf? Data.reading v) (Cast.itemsOf? heap.reading value) := by
  obtain ⟨inner, hview, hinner⟩ := h.view
  rw [Cast.itemsOf?, Cast.itemsOf?, Data.reading_view, reading_view]
  generalize v.view = w at hview
  generalize heap.view value = wvalue at hview
  cases hview with
  | atom a =>
    cases a with
    | text s =>
      have hglyphs := @holdsItems_atoms heap (s.map fun glyph => .text [glyph])
      rw [List.map_map, List.map_map] at hglyphs
      exact .some ⟨[], hglyphs, List.nil_subperm⟩
    | _ => exact .none
  | list hitems => exact .some ⟨_, hitems, hinner⟩
  | @record members values _ hmembers =>
    have hkeys := @holdsItems_atoms heap (members.map Prod.fst)
    -- a record runs through its keys, which are atoms
    nth_rewrite 2 [← hmembers.keys_eq] at hkeys
    rw [List.map_map, List.map_map] at hkeys
    exact .some ⟨[], hkeys, List.nil_subperm⟩

/-- What is a pair in memory is one in the data, of the same key and what it stands for. A key is an
atom, and what is no atom in one reading is none in the other. -/
theorem Holds.pairOf? (h : heap.Holds v value places) :
    Option.Rel (fun pair pairValue => pairValue.1 = pair.1 ∧ heap.HoldsWithin places pair.2 pairValue.2)
      (Cast.pairOf? Data.reading v) (Cast.pairOf? heap.reading value) := by
  have hitems := h.itemsOf?
  rw [Cast.pairOf?, Cast.pairOf?]
  generalize Cast.itemsOf? Data.reading v = items at hitems
  generalize Cast.itemsOf? heap.reading value = values at hitems
  cases hitems with
  | none => exact .none
  | some hheld =>
    -- only two items make a pair, and the first of them has to be a key
    obtain ⟨own, hheld, hown⟩ := hheld
    cases hheld with
    | nil => exact .none
    | @cons key keyValue _ _ _ _ hkey hrest =>
      cases hrest with
      | nil => exact .none
      | cons hvalue hrest =>
        cases hrest with
        | cons => exact .none
        | nil =>
          obtain ⟨inner, hview, -⟩ := hkey.view
          dsimp only
          rw [Data.reading_view, reading_view]
          generalize key.view = w at hview
          generalize heap.view keyValue = wvalue at hview
          cases hview with
          | list | record => exact .none
          | atom a =>
            refine .some ⟨rfl, _, hvalue, List.Subperm.trans ?_ hown⟩
            rw [List.append_nil]
            exact (List.sublist_append_right _ _).subperm

/-- Items that are pairs in memory are the members of the pairs in the data, or else some item is no
pair in either. -/
theorem HoldsItems.pairs {items : List Data} {values : List Value}
    (h : heap.HoldsItems items values places) :
    Option.Rel (fun pairs pairValues => ∃ own, heap.HoldsMembers pairs pairValues own
        ∧ own.Subperm places)
      (items.mapM (Cast.pairOf? Data.reading)) (values.mapM (Cast.pairOf? heap.reading)) := by
  induction items generalizing values places with
  | nil =>
    cases h
    exact .some ⟨[], .nil, List.nil_subperm⟩
  | cons v rest ih =>
    cases h with
    | @cons _ value _ _ values _ hvalue hrest =>
      have hpair := hvalue.pairOf?
      have hpairs := ih hrest
      rw [List.mapM_cons, List.mapM_cons]
      generalize Cast.pairOf? Data.reading v = pair at hpair
      generalize Cast.pairOf? heap.reading value = pairValue at hpair
      generalize rest.mapM (Cast.pairOf? Data.reading) = pairs at hpairs
      generalize values.mapM (Cast.pairOf? heap.reading) = pairValues at hpairs
      -- one item that is no pair, and nothing comes of it
      cases hpair with
      | none => exact .none
      | @some pair pairValue hpair =>
        obtain ⟨key, w⟩ := pair
        obtain ⟨_, wvalue⟩ := pairValue
        obtain ⟨rfl, own, hheld, hown⟩ := hpair
        cases hpairs with
        | none => exact .none
        | some hpairs =>
          obtain ⟨more, hheld', hmore⟩ := hpairs
          exact .some ⟨own ++ more, .cons hheld hheld', hown.append hmore⟩

/-- Members are held after a value was put among them, by objects of theirs and of the value. -/
theorem HoldsMembers.set {members : Members Data} {values : Members Value} {others : List Nat}
    (h : heap.HoldsMembers members values places) (key : Atom) (hvalue : heap.Holds v value others) :
    ∃ own, heap.HoldsMembers (members.set key v) (values.set key value) own
      ∧ own.Subperm (places ++ others) := by
  obtain ⟨front, found, back, rfl, -, hput⟩ := h.focus key
  refine ⟨_, hput (fun _ _ => rfl) hvalue, ?_⟩
  have hperm : (front ++ (others ++ back)).Perm (front ++ (back ++ others)) :=
    List.perm_append_comm.append_left front
  refine hperm.subperm.trans ?_
  rw [List.append_assoc, List.append_assoc]
  exact ((List.sublist_append_right found (back ++ others)).append_left front).subperm

/-- The record of pairs that are held is held by some of their objects. Where a key comes twice, the
value that is replaced leaves its objects behind. -/
theorem HoldsMembers.recordOf {pairs : Members Data} {pairValues : Members Value}
    (h : heap.HoldsMembers pairs pairValues places) :
    ∃ own, heap.HoldsMembers (Cast.recordOf pairs) (Cast.recordOf pairValues) own
      ∧ own.Subperm places := by
  -- the pairs are put one after the other to members that are held already
  have hfold : ∀ {pairs : Members Data} {pairValues : Members Value} {places : List Nat},
      heap.HoldsMembers pairs pairValues places →
      ∀ {members : Members Data} {values : Members Value} {before : List Nat},
        heap.HoldsMembers members values before →
        ∃ own, heap.HoldsMembers
            (pairs.foldl (fun members (key, v) => Members.set members key v) members)
            (pairValues.foldl (fun members (key, v) => Members.set members key v) values) own
          ∧ own.Subperm (before ++ places) := by
    intro pairs
    induction pairs with
    | nil =>
      intro pairValues places h members values before hbefore
      cases h
      exact ⟨before, hbefore, by rw [List.append_nil]⟩
    | cons pair rest ih =>
      intro pairValues places h members values before hbefore
      cases h with
      | @cons key v value own _ restValues more hvalue hrest =>
        obtain ⟨now, hnow, hsub⟩ := hbefore.set key hvalue
        obtain ⟨final, hfinal, hsub'⟩ := ih hrest hnow
        refine ⟨final, hfinal, hsub'.trans ?_⟩
        rw [← List.append_assoc]
        exact hsub.append (List.Subperm.refl more)
  exact hfold h .nil

/-- What makes a record in memory makes it in the data. A record makes its own members, and anything
else those of the pairs that it runs through. -/
theorem Holds.membersOf? (h : heap.Holds v value places) :
    Option.Rel (fun members values => ∃ own, heap.HoldsMembers members values own
        ∧ own.Subperm places)
      (Cast.membersOf? Data.reading v) (Cast.membersOf? heap.reading value) := by
  obtain ⟨inner, hview, hinner⟩ := h.view
  have hitems := h.itemsOf?
  -- what is no record may be pairs of keys and values
  have hpairs : Option.Rel (fun members values => ∃ own, heap.HoldsMembers members values own
        ∧ own.Subperm places)
      (((Cast.itemsOf? Data.reading v).bind fun items =>
        items.mapM (Cast.pairOf? Data.reading)).map Cast.recordOf)
      (((Cast.itemsOf? heap.reading value).bind fun items =>
        items.mapM (Cast.pairOf? heap.reading)).map Cast.recordOf) := by
    generalize Cast.itemsOf? Data.reading v = items at hitems
    generalize Cast.itemsOf? heap.reading value = values at hitems
    cases hitems with
    | none => exact .none
    | @some items values hheld =>
      obtain ⟨own, hheld, hown⟩ := hheld
      have hpairs := hheld.pairs
      rw [Option.bind_some, Option.bind_some]
      generalize items.mapM (Cast.pairOf? Data.reading) = pairs at hpairs
      generalize values.mapM (Cast.pairOf? heap.reading) = pairValues at hpairs
      cases hpairs with
      | none => exact .none
      | some hpairs =>
        obtain ⟨more, hpairs, hmore⟩ := hpairs
        obtain ⟨final, hfinal, hsub⟩ := hpairs.recordOf
        exact .some ⟨final, hfinal, (hsub.trans hmore).trans hown⟩
  rw [Cast.membersOf?, Cast.membersOf?, Data.reading_view, reading_view]
  generalize v.view = w at hview
  generalize heap.view value = wvalue at hview
  cases hview with
  | record hmembers => exact .some ⟨_, hmembers, hinner⟩
  | atom | list => exact hpairs

/-- What casts of data and of a value in memory come to: one error, or no cast, or views of the same,
by objects at places. -/
inductive CastsAlike (heap : Heap) (places : List Nat) :
    Except Cast.Fault (Option (View Data)) → Except Cast.Fault (Option (View Value)) → Prop where
  | error (why : Cast.Fault) : CastsAlike heap places (.error why) (.error why)
  | none : CastsAlike heap places (.ok none) (.ok none)
  | some {w : View Data} {wvalue : View Value} {own : List Nat} (hview : heap.HoldsView w wvalue own)
      (hown : own.Subperm places) : CastsAlike heap places (.ok (some w)) (.ok (some wvalue))

/-- **A value is cast in memory as in the data**, if no object of it is used twice. One case for
each kind that can be cast to. -/
theorem Holds.toKind (h : heap.Holds v value places) (hnodup : places.Nodup) (room : Nat)
    (kind : Kind) :
    heap.CastsAlike places (Cast.toKind Data.reading room kind v)
      (Cast.toKind heap.reading room kind value) := by
  obtain ⟨inner, hview, -⟩ := h.view
  have hatom : ∀ a, heap.CastsAlike places (.ok (some (.atom a))) (.ok (some (.atom a))) :=
    fun a => .some (.atom a) List.nil_subperm
  cases kind with
  | null => exact .none
  | flag =>
    rw [Cast.toKind, Cast.toKind, Data.reading_view, reading_view, hview.toFlag_eq]
    exact hatom _
  | integer =>
    rw [Cast.toKind, Cast.toKind, Data.reading_view, reading_view, hview.toInteger_eq]
    rcases Cast.toInteger v.view with why | _ | n
    · exact .error why
    · exact .none
    · exact hatom _
  | float =>
    rw [Cast.toKind, Cast.toKind, Data.reading_view, reading_view, hview.toFloat_eq]
    rcases Cast.toFloat v.view with why | _ | x
    · exact .error why
    · exact .none
    · exact hatom _
  -- a text is made of all that is in a value, with its objects
  | text =>
    rw [Cast.toKind, Cast.toKind, Cast.toText, Cast.toText, h.shown_eq hnodup]
    rcases Data.reading.shown room v with (_ | _) | s
    · exact .none
    · exact .error _
    · exact hatom _
  -- the items are the same values in a new list
  | list =>
    have hitems := h.itemsOf?
    rw [Cast.toKind, Cast.toKind]
    generalize Cast.itemsOf? Data.reading v = items at hitems
    generalize Cast.itemsOf? heap.reading value = values at hitems
    cases hitems with
    | none => exact .none
    | some hheld =>
      obtain ⟨own, hheld, hown⟩ := hheld
      exact .some (.list hheld) hown
  | record =>
    have hmembers := h.membersOf?
    rw [Cast.toKind, Cast.toKind]
    generalize Cast.membersOf? Data.reading v = members at hmembers
    generalize Cast.membersOf? heap.reading value = values at hmembers
    cases hmembers with
    | none => exact .none
    | some hheld =>
      obtain ⟨own, hheld, hown⟩ := hheld
      exact .some (.record hheld) hown

/-- The same for a value that replaces another one. -/
theorem Holds.replacement {old : Option Data} {oldValue : Option Value} {others : List Nat}
    (h : heap.Holds v value places) (hnodup : places.Nodup)
    (hold : heap.HoldsOption old oldValue others) (room : Nat) :
    heap.CastsAlike places (Cast.replacement Data.reading room old v)
      (Cast.replacement heap.reading room oldValue value) := by
  cases hold with
  | none => exact .none
  | some hheld =>
    obtain ⟨inner, hview, -⟩ := hheld.view
    rw [Cast.replacement, Cast.replacement, Data.reading_view, reading_view, hview.kind_eq]
    exact h.toKind hnodup room _

end Heap

end BlockTheme.Settings
