import BlockTheme.Proofs.Settings.Changes
import BlockTheme.Proofs.Settings.Readings

/-!
# Changes in memory

A change in memory does to the settings what a change of settings does that are values
(`Heap.put_changed`), if the objects of the settings and those of the new value are used once each.
That is where it matters that they share no object: then writing to the one record at the end of the
path changes nothing else, neither in the settings nor in the value. Making the change once more with
the same value, which is part of the settings by then, leaves them as they are (`Heap.put_again`).
-/

namespace BlockTheme.Settings

open Text (Glyphs)

namespace Heap

variable {heap later grown : Heap} {v w : Data} {value new : Value} {room place : Nat}
  {members : Members Data} {values : Members Value} {key : Glyphs}
  {places own front found back more : List Nat}

/-! ## What is put -/

/-- A new object for what is seen of a value stands for that, by objects of the value and itself.
This is how a cast comes into memory: the copy is new, and what is in it is shared. -/
theorem HoldsView.create {w : View Data} {wvalue : View Value} (h : heap.HoldsView w wvalue own)
    (hnodup : own.Nodup) :
    ∃ more, heap <+: (heap.create wvalue).2
      ∧ (heap.create wvalue).2.Holds (Data.ofView w) (heap.create wvalue).1 more
      ∧ more.Nodup ∧ ∀ p ∈ more, p ∈ own ∨ heap.length ≤ p := by
  cases h with
  | atom a =>
    exact ⟨[], List.prefix_rfl, .atom a, List.nodup_nil, fun p hp => absurd hp List.not_mem_nil⟩
  | @list items values inner hitems =>
    -- the new object stands at the end and holds what was there already
    have hkept : heap <+: heap ++ [.list values] := List.prefix_append _ _
    refine ⟨heap.length :: own, hkept, .list List.getElem?_concat_length (hitems.congr fun p hp =>
      getElem?_of_grown hkept (hitems.lt_length p hp)), nodup_cons_length hitems.lt_length hnodup, ?_⟩
    exact List.forall_mem_cons.2 ⟨.inr (Nat.le_refl _), fun p hp => .inl hp⟩
  | @record members values inner hmembers =>
    have hkept : heap <+: heap ++ [.record values] := List.prefix_append _ _
    refine ⟨heap.length :: own, hkept, .record List.getElem?_concat_length (hmembers.congr fun p hp =>
      getElem?_of_grown hkept (hmembers.lt_length p hp)),
      nodup_cons_length hmembers.lt_length hnodup, ?_⟩
    exact List.forall_mem_cons.2 ⟨.inr (Nat.le_refl _), fun p hp => .inl hp⟩

/-- **What is put for a value stands for what is stored of the data.** The value itself is put if it
was not cast, and otherwise a new object with what it was cast to. -/
theorem Holds.supply {cast : Option (View Data)} {castValue : Option (View Value)}
    (h : heap.Holds v value own) (hnodup : own.Nodup)
    (hcast : heap.CastsAlike own (.ok cast) (.ok castValue)) :
    ∃ more, heap <+: (heap.supply castValue value).2
      ∧ (heap.supply castValue value).2.Holds (Cast.stored cast v) (heap.supply castValue value).1 more
      ∧ more.Nodup ∧ ∀ p ∈ more, p ∈ own ∨ heap.length ≤ p := by
  cases hcast with
  | none => exact ⟨own, List.prefix_rfl, h, hnodup, fun p hp => .inl hp⟩
  | some hview hsub =>
    obtain ⟨taken, hperm, hsublist⟩ := id hsub
    obtain ⟨more, hgrown, hheld, hmore, hfrom⟩ :=
      hview.create (hperm.nodup (hnodup.sublist hsublist))
    exact ⟨more, hgrown, hheld, hmore, fun p hp => (hfrom p hp).imp_left (hsub.subset ·)⟩

/-! ## The record that is written to -/

/-- What a change has done to memory. The record at `place`, which took the objects at `places` and was
given a value that takes those at `own`, now stands for `members`, and other objects are as they
were. -/
structure Changed (heap later : Heap) (place : Nat) (places own : List Nat) (members : Members Data) :
    Prop where
  length_le : heap.length ≤ later.length
  others : ∀ p < heap.length, p ∉ places → later[p]? = heap[p]?
  holds : ∃ taken, later.Holds (.record members) (.object place) taken ∧ taken.Nodup
    ∧ ∀ p ∈ taken, p ∈ places ∨ p ∈ own ∨ heap.length ≤ p

/-- Where nothing is done nothing has changed. -/
theorem Changed.refl (h : heap.Holds (.record members) (.object place) places)
    (hnodup : places.Nodup) : heap.Changed heap place places own members :=
  ⟨Nat.le_refl _, fun _ _ _ => rfl, places, h, hnodup, fun _ hp => .inl hp⟩

/-- The objects of a record: itself, those of the value under a key, and those before and after it. -/
structure Focus (heap : Heap) (place : Nat) (members : Members Data) (values : Members Value)
    (key : Glyphs) (front found back : List Nat) : Prop where
  object : heap[place]? = some (.record values)
  member : heap.HoldsOption (members.get? (.text key)) (values.get? (.text key)) found
  lt_length : ∀ p ∈ place :: (front ++ (found ++ back)), p < heap.length
  put : ∀ {later : Heap} {w : Data} {new : Value} {others : List Nat},
    (∀ p ∈ front ++ back, later[p]? = heap[p]?) → later.Holds w new others →
      later.HoldsMembers (members.set (.text key) w) (values.set (.text key) new)
        (front ++ (others ++ back))

/-- The record of settings at one of its keys: what is held before the member, in it and behind it.
-/
theorem Holds.focus (h : heap.Holds (.record members) (.object place) places) (key : Glyphs) :
    ∃ values front found back, places = place :: (front ++ (found ++ back))
      ∧ heap.Focus place members values key front found back := by
  have hbound := h.lt_length
  cases h with
  | @record _ _ values _ hobject hmembers =>
    obtain ⟨front, found, back, rfl, hfound, hput⟩ := hmembers.focus (.text key)
    exact ⟨values, front, found, back, rfl, hobject, hfound, hbound, hput⟩

/-- **If all that has changed is the value under a key and what it takes, then the record now stands
for the members with that value.** -/
theorem Focus.changed (h : heap.Focus place members values key front found back)
    (hnodup : (place :: (front ++ (found ++ back)) ++ own).Nodup)
    (hlength : heap.length ≤ later.length)
    (hplace : later[place]? = some (.record (values.set (.text key) new)))
    (hsame : ∀ p < heap.length, p ≠ place → p ∉ found → later[p]? = heap[p]?)
    (hnew : later.Holds w new more) (hmore : more.Nodup)
    (hfrom : ∀ p ∈ more, p ∈ found ∨ p ∈ own ∨ heap.length ≤ p) :
    heap.Changed later place (place :: (front ++ (found ++ back))) own
      (members.set (.text key) w) := by
  have hbound := h.lt_length
  simp only [List.cons_append, List.nodup_cons, List.nodup_append, List.mem_append,
    List.mem_cons] at hnodup hbound
  refine ⟨hlength, fun p hp hout => ?_, place :: (front ++ (more ++ back)), ?_, ?_, ?_⟩
  · simp only [List.mem_cons, List.mem_append, not_or] at hout
    exact hsame p hp hout.1 hout.2.2.1
  · refine .record hplace (h.put (fun p hp => ?_) hnew)
    rw [List.mem_append] at hp
    refine hsame p ?_ ?_ ?_ <;> grind
  · simp only [List.nodup_cons, List.nodup_append, List.mem_append]
    grind
  · simp only [List.mem_cons, List.mem_append]
    grind

/-- The record is not among the objects of a value that is put into it. -/
theorem Focus.not_mem (h : heap.Focus place members values key front found back)
    (hnodup : (place :: (front ++ (found ++ back)) ++ own).Nodup)
    (hfrom : ∀ p ∈ more, p ∈ own ∨ heap.length ≤ p) : place ∉ more := by
  intro hmem
  rcases hfrom place hmem with hown | hge
  · rw [List.cons_append, List.nodup_cons] at hnodup
    exact hnodup.1 (List.mem_append_right _ hown)
  · exact Nat.not_le_of_lt (h.lt_length place List.mem_cons_self) hge

/-- Writing a value to its record, in a memory that is as before apart from the record. The value
must share no object with the record, or writing it might make a loop. -/
theorem Focus.assign (h : heap.Focus place members values key front found back)
    (hnodup : (place :: (front ++ (found ++ back)) ++ own).Nodup)
    {now : Members Value} (hnow : now.set (.text key) new = values.set (.text key) new)
    (hlength : heap.length ≤ grown.length)
    (hsame : ∀ p < heap.length, p ≠ place → grown[p]? = heap[p]?)
    (hnew : grown.Holds w new more) (hmore : more.Nodup)
    (hfrom : ∀ p ∈ more, p ∈ own ∨ heap.length ≤ p) :
    heap.Changed (grown.assign place now key new) place (place :: (front ++ (found ++ back))) own
      (members.set (.text key) w) := by
  have hplace : place < heap.length := h.lt_length place List.mem_cons_self
  -- what comes in shares no place with the record that is assigned to
  have houtside := h.not_mem hnodup hfrom
  refine h.changed hnodup ?_ ?_ ?_ (hnew.set houtside _) hmore fun p hp => .inr (hfrom p hp)
  · rw [Heap.assign, List.length_set]
    exact hlength
  · rw [Heap.assign, hnow]
    exact List.getElem?_set_self (Nat.lt_of_lt_of_le hplace hlength)
  · intro p hp hne _
    rw [Heap.assign, List.getElem?_set_ne hne.symm]
    exact hsame p hp hne

/-! ## Changes along a chain of keys -/

theorem members?_of_getElem? (hobject : heap[place]? = some (.record values)) :
    heap.members? (.object place) = some values := by
  rw [members?, view_of_getElem? hobject]
  rfl

theorem put_singleton (room : Nat) (value : Value) (hobject : heap[place]? = some (.record values))
    (key : Glyphs) :
    heap.put room value [key] place =
      match Cast.replacement heap.reading room (values.get? (.text key)) value with
      | .ok cast =>
        (.stored, (heap.supply cast value).2.assign place values key (heap.supply cast value).1)
      | .error why => (.ofFault why, heap) := by
  have hmembers := members?_of_getElem? hobject
  cases hcast : Cast.replacement heap.reading room (values.get? (.text key)) value with
  | ok cast => simp only [put, hmembers, hcast]
  | error why => simp only [put, hmembers, hcast]

/-- Memory with a new record, which is put under a key of another one. -/
def withRecord (heap : Heap) (place : Nat) (values : Members Value) (key : Glyphs) : Heap :=
  assign (heap ++ [.record []]) place values key (.object heap.length)

/-- On the way, as for data. A record that is missing is made as a new object. -/
theorem put_cons_cons (room : Nat) (value : Value) (hobject : heap[place]? = some (.record values))
    (key next : Glyphs) (rest : List Glyphs) :
    heap.put room value (key :: next :: rest) place =
      match values.get? (.text key) with
      | none => (heap.withRecord place values key).put room value (next :: rest) heap.length
      | some (.object inner) => heap.put room value (next :: rest) inner
      | some (.atom _) => (.refused, heap) := by
  rw [put, members?_of_getElem? hobject]
  dsimp only
  rcases values.get? (.text key) with _ | _ | _ <;> rfl

/-- The new record is the last object then. -/
theorem getElem?_withRecord (hobject : heap[place]? = some (.record values)) (key : Glyphs) :
    (heap.withRecord place values key)[heap.length]? = some (.record []) := by
  have hplace := (List.getElem?_eq_some_iff.1 hobject).1
  rw [withRecord, Heap.assign, List.getElem?_set_ne (Nat.ne_of_lt hplace)]
  exact List.getElem?_concat_length

/-- In what is no record nothing is put. -/
theorem put_of_members?_eq_none (hrecord : heap.members? (.object place) = none) (room : Nat)
    (value : Value) (keys : List Glyphs) :
    heap.put room value keys place = (.refused, heap) := by
  cases keys with
  | nil => rfl
  | cons key rest => rw [put, hrecord]

/-- The outer record is as it was after a change in an inner one. -/
theorem Focus.object_of_inner {inner : Nat} {changed : Members Data}
    (h : heap.Focus place members values key front found back)
    (hnodup : (place :: (front ++ (found ++ back)) ++ own).Nodup)
    (hchanged : heap.Changed later inner found own changed) :
    later[place]? = some (.record values) := by
  rw [hchanged.others place (h.lt_length place List.mem_cons_self) ?_, h.object]
  intro hmem
  rw [List.cons_append, List.nodup_cons] at hnodup
  exact hnodup.1 (by simp [hmem])

/-- In an inner record that stands under a key, a change is one of the outer record. -/
theorem Focus.outer {inner : Nat} {changed : Members Data}
    (h : heap.Focus place members values key front found back)
    (hnodup : (place :: (front ++ (found ++ back)) ++ own).Nodup)
    (hvalues : values.get? (.text key) = some (.object inner))
    (hchanged : heap.Changed later inner found own changed) :
    heap.Changed later place (place :: (front ++ (found ++ back))) own
      (members.set (.text key) (.record changed)) := by
  have hobject := h.object_of_inner hnodup hchanged
  obtain ⟨hlength, hothers, taken, hheld, htaken, hfrom⟩ := hchanged
  refine h.changed hnodup hlength ?_ (fun p hp _ hout => hothers p hp hout) hheld htaken hfrom
  rw [Members.set_eq_self hvalues, hobject]

theorem length_withRecord (heap : Heap) (place : Nat) (values : Members Value) (key : Glyphs) :
    (heap.withRecord place values key).length = heap.length + 1 := by
  rw [withRecord, Heap.assign, List.length_set, List.length_append]
  rfl

/-- The objects that were there before a record was made are changed with it alone. -/
theorem Changed.getElem?_of_withRecord {changed : Members Data}
    (hchanged : (heap.withRecord place values key).Changed later heap.length [heap.length] own
      changed) {p : Nat} (hp : p < heap.length) :
    later[p]? = (heap.withRecord place values key)[p]? := by
  refine hchanged.others p ?_ fun hmem => ?_
  · rw [length_withRecord]
    exact Nat.lt_succ_of_lt hp
  · rw [List.mem_singleton.1 hmem] at hp
    exact Nat.lt_irrefl _ hp

/-- The outer record has the new one after a change in that. -/
theorem Focus.object_of_created {changed : Members Data}
    (h : heap.Focus place members values key front found back)
    (hchanged : (heap.withRecord place values key).Changed later heap.length [heap.length] own
      changed) :
    later[place]? = some (.record (values.set (.text key) (.object heap.length))) := by
  have hplace : place < heap.length := h.lt_length place List.mem_cons_self
  rw [hchanged.getElem?_of_withRecord hplace]
  refine List.getElem?_set_self ?_
  rw [List.length_append]
  exact Nat.lt_add_right _ hplace

/-- In a new record that is put under a key, a change is one of the outer record. The new record is
the last object of the memory, and the change below it adds objects after it. -/
theorem Focus.created {changed : Members Data}
    (h : heap.Focus place members values key front found back)
    (hnodup : (place :: (front ++ (found ++ back)) ++ own).Nodup)
    (hchanged : (heap.withRecord place values key).Changed later heap.length [heap.length] own
      changed) :
    heap.Changed later place (place :: (front ++ (found ++ back))) own
      (members.set (.text key) (.record changed)) := by
  have hlength := hchanged.length_le
  -- the record that was made is the last object, and the change below went on in it
  obtain ⟨taken, hheld, htaken, hfrom⟩ := hchanged.holds
  rw [length_withRecord] at hlength hfrom
  refine h.changed hnodup (Nat.le_of_succ_le hlength) (h.object_of_created hchanged) ?_ hheld htaken
    fun p hp => ?_
  · intro p hp hne _
    rw [hchanged.getElem?_of_withRecord hp, withRecord, Heap.assign, List.getElem?_set_ne hne.symm]
    exact List.getElem?_append_left hp
  · rcases hfrom p hp with hmem | hown | hge
    · exact .inr (.inr (Nat.le_of_eq (List.mem_singleton.1 hmem).symm))
    · exact .inr (.inl hown)
    · exact .inr (.inr (Nat.le_of_succ_le hge))

/-- The new record is held, and so is what was held before. -/
theorem Focus.withRecord (h : heap.Focus place members values key front found back)
    (hnodup : (place :: (front ++ (found ++ back)) ++ own).Nodup) (hvalue : heap.Holds v value own) :
    (heap.withRecord place values key).Holds (.record []) (.object heap.length) [heap.length]
      ∧ (heap.withRecord place values key).Holds v value own
      ∧ ([heap.length] ++ own).Nodup := by
  rw [List.cons_append, List.nodup_cons] at hnodup
  have hown : own.Nodup := (List.nodup_append.1 hnodup.2).2.1
  refine ⟨.record (getElem?_withRecord h.object key) .nil, ?_,
    nodup_cons_length hvalue.lt_length hown⟩
  refine (hvalue.mono (List.prefix_append _ _)).set (fun hmem => hnodup.1 ?_) _
  exact List.mem_append_right _ hmem

/-- The objects of an inner record are apart from the value, as those of the outer record are. -/
theorem nodup_inner (hnodup : (place :: (front ++ (found ++ back)) ++ own).Nodup) :
    (found ++ own).Nodup := by
  refine hnodup.sublist ?_
  exact (((List.sublist_append_left found back).trans (List.sublist_append_right front _)).trans
    (List.sublist_cons_self place _)).append_right own

/-- **A change in memory does what it does to the data that is held there**, and has the same outcome,
if the record and the value use no object twice and share none. The induction is along the keys: the
inner record, old or new, takes objects that the outer one does not take elsewhere. -/
theorem put_changed (room : Nat) (key : Glyphs) (rest : List Glyphs)
    (hroot : heap.Holds (.record members) (.object place) places) (hvalue : heap.Holds v value own)
    (hnodup : (places ++ own).Nodup) :
    (heap.put room value (key :: rest) place).1 = (Settings.put room members v (key :: rest)).1
      ∧ heap.Changed (heap.put room value (key :: rest) place).2 place places own
        (Settings.put room members v (key :: rest)).2 := by
  induction rest generalizing heap key members place places with
  | nil =>
    obtain ⟨hplaces, hown, -⟩ := List.nodup_append.1 hnodup
    obtain ⟨values, front, found, back, rfl, hfocus⟩ := hroot.focus key
    -- at the end of the path: both casts come to the same
    have hcast := hvalue.replacement hown hfocus.member room
    rw [put_singleton room value hfocus.object, Settings.put_singleton]
    generalize Cast.replacement Data.reading room (members.get? (.text key)) v = cast at hcast
    generalize Cast.replacement heap.reading room (values.get? (.text key)) value = castValue at hcast
    rcases castValue with why | castValue <;> rcases cast with why' | cast
    · cases hcast
      exact ⟨rfl, .refl hroot hplaces⟩
    · cases hcast
    · cases hcast
    · obtain ⟨more, hgrown, hheld, hmore, hfrom⟩ := hvalue.supply hown hcast
      exact ⟨rfl, hfocus.assign hnodup rfl hgrown.length_le
        (fun p hp _ => getElem?_of_grown hgrown hp) hheld hmore hfrom⟩
  | cons next rest ih =>
    obtain ⟨hplaces, -, -⟩ := List.nodup_append.1 hnodup
    obtain ⟨values, front, found, back, rfl, hfocus⟩ := hroot.focus key
    rw [put_cons_cons room value hfocus.object, Settings.put_cons_cons]
    have hmember := hfocus.member
    generalize members.get? (.text key) = old at hmember
    generalize hvalues : values.get? (.text key) = oldValue at hmember
    cases hmember with
    -- the record that is missing is made, and the path goes on in it
    | none =>
      obtain ⟨hrecord, hkept, hapart⟩ := hfocus.withRecord hnodup hvalue
      obtain ⟨hsame, hchanged⟩ := ih next hrecord hkept hapart
      exact ⟨hsame, hfocus.created hnodup hchanged⟩
    | some hheld =>
      cases hheld with
      | atom a => exact ⟨rfl, .refl hroot hplaces⟩
      -- a list ends the path without a change, like an atom
      | @list inner _ _ _ hobject _ =>
        have hlist : heap.members? (.object inner) = none := by
          rw [members?, view_of_getElem? hobject]
          rfl
        dsimp only
        rw [put_of_members?_eq_none hlist]
        exact ⟨rfl, .refl hroot hplaces⟩
      -- the path goes on in the record that is there
      | record hobject hmembers =>
        obtain ⟨hsame, hchanged⟩ := ih next (.record hobject hmembers) hvalue (nodup_inner hnodup)
        exact ⟨hsame, hfocus.outer hnodup hvalues hchanged⟩

/-- **A change that was made is made once more with the same value, and nothing comes of it**, although
the value may be a part of the settings by then: the record stands for what it stood for after the
first time. -/
theorem put_again (room : Nat) (key : Glyphs) (rest : List Glyphs)
    (hroot : heap.Holds (.record members) (.object place) places) (hvalue : heap.Holds v value own)
    (hnodup : (places ++ own).Nodup)
    (hstored : (Settings.put room members v (key :: rest)).1 = .stored) :
    ((heap.put room value (key :: rest) place).2.put room value (key :: rest) place).1 = .stored
      ∧ heap.Changed ((heap.put room value (key :: rest) place).2.put room value (key :: rest) place).2
        place places own (Settings.put room members v (key :: rest)).2 := by
  induction rest generalizing heap key members place places with
  | nil =>
    obtain ⟨-, hown, -⟩ := List.nodup_append.1 hnodup
    obtain ⟨values, front, found, back, rfl, hfocus⟩ := hroot.focus key
    have hcast := hvalue.replacement hown hfocus.member room
    rw [Settings.put_singleton] at hstored
    rw [put_singleton room value hfocus.object, Settings.put_singleton]
    generalize hdata : Cast.replacement Data.reading room (members.get? (.text key)) v = cast
      at hcast hstored
    generalize Cast.replacement heap.reading room (values.get? (.text key)) value = castValue at hcast
    rcases castValue with why | castValue <;> rcases cast with why' | cast
    · cases why' <;> cases hstored
    · cases hcast
    · cases hcast
    · obtain ⟨more, hgrown, hheld, hmore, hfrom⟩ := hvalue.supply hown hcast
      dsimp only
      generalize heap.supply castValue value = supplied at hgrown hheld
      obtain ⟨new, grown⟩ := supplied
      -- after the first time the value that is stored stands in the record
      have hplace : place < heap.length := hfocus.lt_length place List.mem_cons_self
      have hobject : (grown.assign place values key new)[place]?
          = some (.record (values.set (.text key) new)) :=
        List.getElem?_set_self (Nat.lt_of_lt_of_le hplace hgrown.length_le)
      have hstill : Holds (grown.assign place values key new) v value own :=
        (hvalue.mono hgrown).set (hfocus.not_mem hnodup fun p hp => .inl hp) _
      have hthere : Holds (grown.assign place values key new) (Cast.stored cast v) new more :=
        hheld.set (hfocus.not_mem hnodup hfrom) _
      -- so what is put there the second time stands for the same
      obtain ⟨second, hsecond, hsame⟩ := Cast.again hdata
      have hcast := hstill.replacement hown (.some hthere) room
      rw [hsecond] at hcast
      rw [put_singleton room value hobject, Members.get?_set_self]
      generalize Cast.replacement (reading (grown.assign place values key new)) room (some new) value
        = secondValue at hcast
      rcases secondValue with why | secondValue
      · cases hcast
      · obtain ⟨more', hgrown', hheld', hmore', hfrom'⟩ := hstill.supply hown hcast
        rw [hsame] at hheld'
        have hlength : heap.length ≤ (grown.assign place values key new).length := by
          rw [Heap.assign, List.length_set]
          exact hgrown.length_le
        refine ⟨rfl, hfocus.assign hnodup (Members.set_set _ _ _ _)
          (Nat.le_trans hlength hgrown'.length_le) (fun p hp hne => ?_) hheld' hmore'
          fun p hp => (hfrom' p hp).imp_right (Nat.le_trans hlength)⟩
        rw [getElem?_of_grown hgrown' (Nat.lt_of_lt_of_le hp hlength), Heap.assign,
          List.getElem?_set_ne hne.symm]
        exact getElem?_of_grown hgrown hp
  | cons next rest ih =>
    obtain ⟨values, front, found, back, rfl, hfocus⟩ := hroot.focus key
    rw [Settings.put_cons_cons] at hstored
    rw [put_cons_cons room value hfocus.object, Settings.put_cons_cons]
    have hmember := hfocus.member
    generalize members.get? (.text key) = old at hmember hstored
    generalize hvalues : values.get? (.text key) = oldValue at hmember
    cases hmember with
    | none =>
      obtain ⟨hrecord, hkept, hapart⟩ := hfocus.withRecord hnodup hvalue
      have hobject := hfocus.object_of_created (put_changed room next rest hrecord hkept hapart).2
      obtain ⟨hsame, hchanged⟩ := ih next hrecord hkept hapart hstored
      dsimp only
      rw [put_cons_cons room value hobject, Members.get?_set_self]
      exact ⟨hsame, hfocus.created hnodup hchanged⟩
    | some hheld =>
      cases hheld with
      | atom a => cases hstored
      | list hobject hitems => cases hstored
      | record hinner hmembers =>
        have hapart := nodup_inner hnodup
        have hobject := hfocus.object_of_inner hnodup
          (put_changed room next rest (.record hinner hmembers) hvalue hapart).2
        obtain ⟨hsame, hchanged⟩ := ih next (.record hinner hmembers) hvalue hapart hstored
        dsimp only
        rw [put_cons_cons room value hobject, hvalues]
        exact ⟨hsame, hfocus.outer hnodup hvalues hchanged⟩

/-! ## Changes that fail -/

/-- What has members is an object that is a record. -/
theorem getElem?_of_members? (hrecord : heap.members? (.object place) = some values) :
    heap[place]? = some (.record values) := by
  rw [members?, view] at hrecord
  cases hobject : heap[place]? with
  | none =>
    rw [hobject] at hrecord
    cases hrecord
  | some object =>
    rw [hobject] at hrecord
    cases object with
    | list => cases hrecord
    | record members =>
      obtain rfl : members = values := Option.some.inj hrecord
      rfl

/-- In a record without members every value can be put. -/
theorem put_of_empty (room : Nat) (value : Value) (key : Glyphs) (rest : List Glyphs)
    (hobject : heap[place]? = some (.record [])) :
    (heap.put room value (key :: rest) place).1 = .stored := by
  induction rest generalizing heap place key with
  | nil =>
    rw [put_singleton room value hobject]
    rfl
  | cons next rest ih =>
    rw [put_cons_cons room value hobject]
    exact ih next (getElem?_withRecord hobject key)

/-- **A change that fails leaves memory as it is**, whatever objects are used more than once: a record
is only made where nothing stands, and what is put into a new record meets nothing that could be in
its way. -/
theorem put_eq_self (room : Nat) (value : Value) (keys : List Glyphs)
    (hfailed : (heap.put room value keys place).1 ≠ .stored) :
    (heap.put room value keys place).2 = heap := by
  induction keys generalizing place with
  | nil => rfl
  | cons key rest ih =>
    cases hrecord : heap.members? (.object place) with
    | none => rw [put_of_members?_eq_none hrecord]
    | some values =>
      have hobject := getElem?_of_members? hrecord
      cases rest with
      | nil =>
        rw [put_singleton room value hobject] at hfailed ⊢
        cases hcast : Cast.replacement heap.reading room (values.get? (.text key)) value with
        | error why => rfl
        | ok cast =>
          rw [hcast] at hfailed
          exact absurd rfl hfailed
      | cons next rest =>
        rw [put_cons_cons room value hobject] at hfailed ⊢
        rcases hmember : values.get? (.text key) with _ | a | inner
        -- into a new record everything can be put
        · rw [hmember] at hfailed
          exact absurd (put_of_empty room value next rest (getElem?_withRecord hobject key)) hfailed
        · rfl
        · rw [hmember] at hfailed
          exact ih hfailed

end Heap

end BlockTheme.Settings
