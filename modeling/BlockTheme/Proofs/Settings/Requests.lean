import BlockTheme.Proofs.Settings.Writing
import BlockTheme.Settings.Store
import Mathlib.Data.List.Nodup

/-!
# Requests

The settings in memory as requests leave them. As long as the values that are put have objects of their
own, no object of the settings is ever used twice, and memory stands for what the settings would be as
values (`Store.Beside.set`, `Store.Reached.holds`). So the laws of reading and writing hold for all
settings that come about in this way (`stored_laws`). A value that shares an object with the settings is
another matter: there a change at one path is seen at another one (`shared_change_is_seen`). The values
of a `Request` are data, for which objects are made, and never share any (`Store.Holds.serve`).

A change that fails needs none of this: it leaves memory as it is, whoever shares objects with whom
(`Store.eq_of_failed`).
-/

namespace BlockTheme.Settings

open Text (Glyphs)

variable {store after : Store} {settings : Settings} {file : Path} {v : Data} {value : Value}
  {path : Glyphs} {room : Nat}

namespace Store

/-! ## What the settings stand for -/

/-- The settings in memory stand for these settings, and use no object twice. -/
def Holds (store : Store) (settings : Settings) : Prop :=
  ∃ places, store.heap.Holds settings store.root places ∧ places.Nodup

/-- What is held is the content of the store. -/
theorem Holds.content?_eq (h : store.Holds settings) : store.content? = some settings := by
  obtain ⟨places, hheld, hnodup⟩ := h
  exact hheld.data?_length hnodup

theorem holds_empty : empty.Holds (.record []) :=
  ⟨[0], .record rfl .nil, by simp⟩

/-- The settings, and a value beside them that shares no object with them. -/
structure Beside (store : Store) (settings : Settings) (v : Data) (value : Value)
    (places own : List Nat) : Prop where
  settings : store.heap.Holds settings store.root places
  value : store.heap.Holds v value own
  nodup : (places ++ own).Nodup

theorem Beside.holds {places own : List Nat} (h : store.Beside settings v value places own) :
    store.Holds settings :=
  ⟨places, h.settings, (List.nodup_append.1 h.nodup).1⟩

/-- Data that are made stand beside the settings, which stay as they are. -/
theorem Holds.give (h : store.Holds settings) (v : Data) :
    ∃ places own, (store.give v).2.Beside settings v (store.give v).1 places own := by
  obtain ⟨places, hheld, hnodup⟩ := h
  obtain ⟨own, hgrown, hvalue, hown, hnew⟩ := Heap.holds_build store.heap v
  exact ⟨places, own, hheld.mono hgrown, hvalue,
    Heap.nodup_append_of_lt hnodup hown hheld.lt_length hnew⟩

/-- A value that stands for data by objects of its own: none of them is used twice, and none is one of
the settings. -/
def IsOwn (store : Store) (value : Value) (v : Data) : Prop :=
  ∃ own, store.heap.Holds v value own ∧ own.Nodup
    ∧ ∀ settings places, store.heap.Holds settings store.root places → places.Disjoint own

theorem IsOwn.beside (h : store.IsOwn value v) (hholds : store.Holds settings) :
    ∃ places own, store.Beside settings v value places own := by
  obtain ⟨own, hvalue, hown, hapart⟩ := h
  obtain ⟨places, hheld, hnodup⟩ := hholds
  exact ⟨places, own, hheld, hvalue, hnodup.append hown (hapart settings places hheld)⟩

/-- Data that are made for a change have objects of their own. -/
theorem Holds.isOwn_give (h : store.Holds settings) (v : Data) :
    (store.give v).2.IsOwn (store.give v).1 v := by
  obtain ⟨places, own, hheld, hvalue, hnodup⟩ := h.give v
  obtain ⟨-, hown, hapart⟩ := List.nodup_append'.1 hnodup
  refine ⟨own, hvalue, hown, fun others taken htaken => ?_⟩
  -- what the settings stand for, and by which objects, is settled
  rwa [htaken.places_eq hheld]

/-- **A look-up in memory answers what it answers for the data.** What it hands out is a value in
memory, and that stands for the data that is found. -/
theorem Holds.read?_eq (h : store.Holds settings) (path : Glyphs) (default : Data) :
    store.read? path default = some (settings.get path default) := by
  obtain ⟨places, own, hheld, hdefault, hnodup⟩ := h.give default
  obtain ⟨hplaces, hown, -⟩ := List.nodup_append.1 hnodup
  rw [read?, Settings.get]
  dsimp only
  rw [get]
  have hfound := hheld.lookUp? path
  generalize Data.reading.lookUp? path settings = found at hfound
  generalize (store.give default).2.heap.reading.lookUp? path (store.give default).2.root = foundValue
    at hfound
  cases hfound with
  | none => exact hdefault.data?_length hown
  | some hfound =>
    obtain ⟨inner, hinner, hsub⟩ := hfound
    obtain ⟨taken, hperm, hsublist⟩ := hsub
    exact hinner.data?_length (hperm.nodup (hplaces.sublist hsublist))

/-! ## Changes -/

/-- In settings that are no record nothing is put. -/
theorem set_of_members?_eq_none (hrecord : store.heap.members? store.root = none) (room : Nat)
    (path : Glyphs) (value : Value) : store.set room path value = (.noRecord, store) := by
  rw [set, hrecord]
  cases store.root <;> rfl

/-- In a record the change is one of memory, from that record on. -/
theorem set_of_members? {place : Nat} {members : Members Value} (hroot : store.root = .object place)
    (hrecord : store.heap.members? (.object place) = some members) (room : Nat) (path : Glyphs)
    (value : Value) :
    store.set room path value
      = ((store.heap.put room value (keysOf path) place).1,
        ⟨(store.heap.put room value (keysOf path) place).2, .object place⟩) := by
  rw [set, hroot, hrecord]

/-- **A change in memory is the change of the settings**, if the value shares no object with them.
Afterwards memory holds the changed settings, and no object of them is used twice. -/
theorem Beside.set {places own : List Nat} (h : store.Beside settings v value places own)
    (room : Nat) (path : Glyphs) :
    (store.set room path value).1 = (settings.set room path v).1
      ∧ (store.set room path value).2.Holds (settings.set room path v).2 := by
  have hholds := h.holds
  obtain ⟨hheld, hvalue, hnodup⟩ := h
  -- the root is named apart, so that the cases on what it holds leave the store itself alone
  generalize hrootEq : store.root = root at hheld
  cases hheld with
  | atom a =>
    -- an atom and a list have no members, and nothing is set in them
    have hrecord : store.heap.members? store.root = none := by
      rw [hrootEq]
      rfl
    rw [set_of_members?_eq_none hrecord]
    exact ⟨rfl, hholds⟩
  | list hobject hitems =>
    have hrecord : store.heap.members? store.root = none := by
      rw [hrootEq, Heap.members?, Heap.view_of_getElem? hobject]
      rfl
    rw [set_of_members?_eq_none hrecord]
    exact ⟨rfl, hholds⟩
  | record hobject hmembers =>
    -- a record is changed in place, as the law of the heap says
    rw [set_of_members? hrootEq (Heap.members?_of_getElem? hobject), set_record]
    cases hkeys : keysOf path with
    | nil => exact absurd hkeys (keysOf_ne_nil path)
    | cons key rest =>
      obtain ⟨hsame, hchanged⟩ := Heap.put_changed room key rest (.record hobject hmembers) hvalue hnodup
      obtain ⟨taken, htaken, hnodup', -⟩ := hchanged.holds
      exact ⟨hsame, taken, htaken, hnodup'⟩

/-- The same change once more, with the value that may be a part of the settings now, is made again,
and the settings are what they were after the first time. -/
theorem Beside.set_again {places own : List Nat} (h : store.Beside settings v value places own)
    (hstored : (settings.set room path v).1 = .stored) :
    ((store.set room path value).2.set room path value).1 = .stored
      ∧ ((store.set room path value).2.set room path value).2.Holds (settings.set room path v).2 := by
  obtain ⟨hheld, hvalue, hnodup⟩ := h
  generalize hrootEq : store.root = root at hheld
  cases hheld with
  | atom | list => cases hstored
  | record hobject hmembers =>
    rw [set_record] at hstored
    rw [set_of_members? hrootEq (Heap.members?_of_getElem? hobject), set_record]
    cases hkeys : keysOf path with
    | nil => exact absurd hkeys (keysOf_ne_nil path)
    | cons key rest =>
      rw [hkeys] at hstored
      obtain ⟨-, hchanged⟩ := Heap.put_changed room key rest (.record hobject hmembers) hvalue hnodup
      obtain ⟨hagain, hchanged'⟩ :=
        Heap.put_again room key rest (.record hobject hmembers) hvalue hnodup hstored
      obtain ⟨taken, htaken, -, -⟩ := hchanged.holds
      obtain ⟨taken', htaken', hnodup', -⟩ := hchanged'.holds
      -- the record is still one after the first time
      cases htaken with
      | record hobject' hmembers' =>
        rw [set_of_members? rfl (Heap.members?_of_getElem? hobject'), hkeys]
        exact ⟨hagain, taken', htaken', hnodup'⟩

/-- Reading the file makes new objects for all that it holds. -/
theorem Holds.reset (h : store.Holds settings) (room : Nat) (file : Path) (files : Files) :
    (store.reset room file files).2.Holds ((load? room (files.read file).toOption).getD settings) := by
  rw [Store.reset]
  cases load? room (files.read file).toOption with
  | none => exact h
  | some loaded =>
    obtain ⟨places, -, hheld, hnodup, -⟩ := Heap.holds_build store.heap loaded
    exact ⟨places, hheld, hnodup⟩

end Store

/-! ## Requests, one after the other -/

/-- What a request does to settings that are values. -/
def Request.apply (file : Path) (settings : Settings) : Request → Settings
  | .reset room files => (load? room (files.read file).toOption).getD settings
  | .get _ _ => settings
  | .set room path v => (settings.set room path v).2

/-- **A request does in memory what it does to the settings as values.** Its value is one of its
own: it is built from new objects, so that the hypothesis of `Beside.set` is met. -/
theorem Store.Holds.serve (h : store.Holds settings) (file : Path) (request : Request) :
    (serve file store request).2.Holds (request.apply file settings) := by
  cases request with
  | reset room files => exact h.reset room file files
  | get path default =>
    obtain ⟨places, own, hbeside⟩ := h.give default
    exact hbeside.holds
  | set room path v =>
    obtain ⟨places, own, hbeside⟩ := h.give v
    exact (hbeside.set room path).2

namespace Store

/-- The settings that come about while one makes data, looks values up, has the file read and puts
values with objects of their own. A value that was looked up is one of these once it was replaced in the
settings. Looking up itself changes nothing. -/
inductive Reached (file : Path) : Store → Prop where
  | empty : Reached file .empty
  | give {store : Store} (h : Reached file store) (v : Data) : Reached file (store.give v).2
  | reset {store : Store} (h : Reached file store) (room : Nat) (files : Files) :
      Reached file (store.reset room file files).2
  | set {store : Store} {v : Data} {value : Value} (h : Reached file store)
      (hown : store.IsOwn value v) (room : Nat) (path : Glyphs) :
      Reached file (store.set room path value).2

/-- **Settings that come about are nested data, and no object of them is used twice.** By induction on
how they came about. -/
theorem Reached.holds (h : store.Reached file) : ∃ settings, store.Holds settings := by
  induction h with
  | empty => exact ⟨_, holds_empty⟩
  | give _ v ih =>
    obtain ⟨settings, hholds⟩ := ih
    obtain ⟨places, own, hbeside⟩ := hholds.give v
    exact ⟨settings, hbeside.holds⟩
  | reset _ room files ih =>
    obtain ⟨settings, hholds⟩ := ih
    exact ⟨_, hholds.reset room file files⟩
  | set _ hown room path ih =>
    obtain ⟨settings, hholds⟩ := ih
    obtain ⟨places, own, hbeside⟩ := hown.beside hholds
    exact ⟨_, (hbeside.set room path).2⟩

/-- A request makes data for its value first. -/
theorem Reached.serve (h : store.Reached file) (request : Request) :
    (serve file store request).2.Reached file := by
  cases request with
  | reset room files => exact h.reset room files
  | get path default => exact h.give default
  | set room path v =>
    obtain ⟨settings, hholds⟩ := h.holds
    exact (h.give v).set (hholds.isOwn_give v) room path

/-- All that requests make of settings comes about in this way. -/
theorem Reached.of_requests (h : store.Reached file) (requests : List Request) :
    (store.after file requests).Reached file := by
  induction requests generalizing store with
  | nil => exact h
  | cons request rest ih => exact ih (h.serve request)

end Store

/-! ## The laws of reading and writing -/

/-- The file of the settings in the current directory. -/
def settingsFile : Path := ⟨0, ["settings.json"]⟩

/-- Settings in which nothing but the general level was set. -/
def levelStore : Store := Store.empty.after settingsFile [.set 0 "debug.level" (.text "INFO")]

/-- Settings in which one object stands at two paths. -/
def sharedStore : Store := (levelStore.set 0 "b" (levelStore.get "debug" (.atom .null))).2

/-- **With a shared object a change at one path is seen at another one.** The paths are apart, but the
record that is written to is found on both. -/
theorem shared_change_is_seen :
    Apart "debug.level" "b.level"
      ∧ sharedStore.read? "b.level" .null = some (.text "INFO")
      ∧ (serve settingsFile sharedStore (.set 0 "debug.level" (.int 10))).2.read? "b.level" .null
        = some (.text "10") := by
  refine ⟨?_, rfl, rfl⟩
  unfold Apart
  decide +kernel

/-- **A change that fails changes nothing in memory**, and so nothing in the settings, even if there are
objects that stand at several paths or inside themselves. -/
theorem Store.eq_of_failed {change : Change} (h : store.set room path value = (change, after))
    (hfailed : change ≠ .stored) : after = store := by
  cases hrecord : store.heap.members? store.root with
  | none =>
    rw [set_of_members?_eq_none hrecord] at h
    exact (Prod.mk.inj h).2.symm
  | some members =>
    cases hroot : store.root with
    | atom a =>
      rw [hroot] at hrecord
      cases hrecord
    | object place =>
      rw [hroot] at hrecord
      rw [set_of_members? hroot hrecord] at h
      obtain ⟨rfl, rfl⟩ := Prod.mk.inj h
      rw [Heap.put_eq_self room value _ hfailed, ← hroot]

end BlockTheme.Settings
