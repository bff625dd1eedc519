import BlockTheme.Proofs.Settings.Casts
import BlockTheme.Proofs.Settings.Members
import BlockTheme.Proofs.Text.Marks
import BlockTheme.Settings

/-!
# Changing settings

What a change does to settings, as they are seen by paths. `Settings.Puts` lists the ways in which a
value comes to be stored; the laws of reading and writing are inductions over it. A value that is
stored is found at its path, and at no path apart from it anything is different (`Settings.set_laws`).
A change that fails leaves the settings as they are, and it fails for one of three causes
(`Settings.Prevents`, `Settings.unchanged_of_failed`).
-/

namespace BlockTheme.Settings

open Cast (replacement stored)
open Text (Glyphs)

variable {room : Nat} {members after inner : Members Data} {keys other : List Glyphs} {key : Glyphs}
  {v w : Data}

/-- A value, or a default if it is null. -/
def Data.orDefault (v default : Data) : Data := if v.kind = .null then default else v

/-- The value at the end of a chain of keys, if it is there. -/
def Data.at? : List Glyphs → Data → Option Data
  | [], v => some v
  | key :: rest, .record members => (Members.get? members (.text key)).bind (Data.at? rest)
  | _ :: _, _ => none

/-- A path goes into a record by the first of its keys. -/
theorem Data.at?_record_cons (members : Members Data) (key : Glyphs) (rest : List Glyphs) :
    (Data.record members).at? (key :: rest) = (members.get? (.text key)).bind (Data.at? rest) := rfl

theorem Data.at?_record_singleton (members : Members Data) (key : Glyphs) :
    (Data.record members).at? [key] = members.get? (.text key) := by
  rw [Data.at?_record_cons]
  cases members.get? (.text key) <;> rfl

/-! ## Values by chains of keys -/

/-- The value at the end of a chain of keys, null if there is none. -/
def valueAt (keys : List Glyphs) (v : Data) : Data := (Data.reading.follow? keys v).getD .null

/-- What is read at a path is the value there, or the default if there is none or null. -/
theorem get_eq (settings : Settings) (path : Glyphs) (default : Data) :
    settings.get path default = (valueAt (keysOf path) settings).orDefault default := by
  unfold get Reading.lookUp? valueAt
  cases Data.reading.follow? (keysOf path) settings with
  | none => rfl
  | some found =>
    rw [Option.getD_some, Data.orDefault, Option.filter_some]
    have hkind : (Data.reading.view found).kind = found.kind := rfl
    rw [hkind]
    by_cases hnull : found.kind = .null <;> simp [hnull]

theorem valueAt_nil (v : Data) : valueAt [] v = v := rfl

/-- A key that is missing leads to null, and from there nowhere. -/
theorem valueAt_cons (key : Glyphs) (rest : List Glyphs) (members : Members Data) :
    valueAt (key :: rest) (.record members)
      = valueAt rest ((members.get? (.text key)).getD .null) := rfl

/-- In what is no record nothing is found. -/
theorem valueAt_of_members?_eq_none (hv : v.members? = none) (key : Glyphs) (rest : List Glyphs) :
    valueAt (key :: rest) v = .null := by
  cases v with
  | record members => cases hv
  | _ => rfl

/-- Nothing is found in a record without members. -/
theorem valueAt_empty (key : Glyphs) (rest : List Glyphs) :
    valueAt (key :: rest) (.record []) = .null := by
  rw [valueAt_cons]
  cases rest <;> rfl

/-- What was put under a key is what its path goes on in. -/
theorem valueAt_set_self (key : Glyphs) (rest : List Glyphs) (members : Members Data) (w : Data) :
    valueAt (key :: rest) (.record (members.set (.text key) w)) = valueAt rest w := by
  rw [valueAt_cons, Members.get?_set_self, Option.getD_some]

/-- Along another key nothing changes, whatever a key is given. -/
theorem valueAt_set_of_ne {first : Glyphs} (hne : first ≠ key) (rest : List Glyphs) :
    valueAt (first :: rest) (.record (members.set (.text key) w))
      = valueAt (first :: rest) (.record members) := by
  rw [valueAt_cons, valueAt_cons, Members.get?_set, if_neg]
  rw [Atom.isSame_text_iff, Atom.text.injEq]
  exact hne.symm

/-- The record that a change goes on in: the one that is there, or a new one. -/
def Enters (members : Members Data) (key : Glyphs) (inner : Members Data) : Prop :=
  (members.get? (.text key)).getD (.record []) = .record inner

/-- A value is looked up further on in the record that a change would go on in. If there is none,
the change makes an empty one, in which as little is found. -/
theorem Enters.valueAt_cons_cons (h : Enters members key inner) (next : Glyphs)
    (rest : List Glyphs) :
    valueAt (key :: next :: rest) (.record members) = valueAt (next :: rest) (.record inner) := by
  unfold Enters at h
  rw [valueAt_cons]
  cases hkey : members.get? (.text key) with
  | none =>
    rw [hkey] at h
    cases h
    rw [valueAt_empty, Option.getD_none, valueAt_of_members?_eq_none rfl]
  | some w =>
    rw [hkey] at h
    rw [Option.getD_some, ← show w = .record inner from h]

/-! ## Changes that store a value -/

/-- How a value comes to be stored at the end of a chain of keys. -/
inductive Puts (room : Nat) (v : Data) : List Glyphs → Members Data → Members Data → Prop where
  | last {key : Glyphs} {members : Members Data} {cast : Option (View Data)}
      (hcast : replacement Data.reading room (members.get? (.text key)) v = .ok cast) :
      Puts room v [key] members (members.set (.text key) (stored cast v))
  | further {key next : Glyphs} {rest : List Glyphs} {members inner changed : Members Data}
      (henters : Enters members key inner) (hputs : Puts room v (next :: rest) inner changed) :
      Puts room v (key :: next :: rest) members (members.set (.text key) (.record changed))

/-- At the end of a path the value is cast to what is there, if that can be done, and put in its
place. -/
theorem put_singleton (room : Nat) (members : Members Data) (v : Data) (key : Glyphs) :
    put room members v [key] =
      match replacement Data.reading room (members.get? (.text key)) v with
      | .ok cast => (.stored, members.set (.text key) (stored cast v))
      | .error why => (.ofFault why, members) := rfl

/-- On the way records are made where nothing is, and entered where there are some. Anything else
stops the way, and nothing is changed. -/
theorem put_cons_cons (room : Nat) (members : Members Data) (v : Data) (key next : Glyphs)
    (rest : List Glyphs) :
    put room members v (key :: next :: rest) =
      match members.get? (.text key) with
      | none =>
        ((put room [] v (next :: rest)).1,
          members.set (.text key) (.record (put room [] v (next :: rest)).2))
      | some (.record inner) =>
        ((put room inner v (next :: rest)).1,
          members.set (.text key) (.record (put room inner v (next :: rest)).2))
      | some _ => (.refused, members) := by
  cases hkey : members.get? (.text key) with
  | none => simp only [put, hkey]
  | some w => cases w <;> simp only [put, hkey]

/-- **A change that stores a value does it in one of these ways.** Both directions are inductions, the
first one along the keys, as the change goes, and the second one over the way in which it is stored. -/
theorem put_eq_stored_iff :
    put room members v keys = (.stored, after) ↔ Puts room v keys members after := by
  constructor
  · intro h
    induction keys generalizing members after with
    | nil => cases h
    | cons key rest ih =>
      cases rest with
      | nil =>
        -- the last key: stored if the cast succeeds
        rw [put_singleton] at h
        cases hcast : replacement Data.reading room (members.get? (.text key)) v with
        | ok cast =>
          rw [hcast] at h
          cases h
          exact .last hcast
        | error why =>
          rw [hcast] at h
          cases why <;> cases h
      | cons next rest =>
        -- a key on the way: nothing is there, or a record, or something that stops it
        rw [put_cons_cons] at h
        cases hkey : members.get? (.text key) with
        | none =>
          rw [hkey] at h
          obtain ⟨hstored, rfl⟩ := Prod.mk.inj h
          exact .further (by rw [Enters, hkey]; rfl) (ih (Prod.ext hstored rfl))
        | some w =>
          rw [hkey] at h
          cases w with
          | record inner =>
            obtain ⟨hstored, rfl⟩ := Prod.mk.inj h
            exact .further (by rw [Enters, hkey]; rfl) (ih (Prod.ext hstored rfl))
          | _ => cases h
  -- by induction on the relation, which has a case for the last key and one for those before it
  · intro h
    induction h with
    | last hcast => rw [put_singleton, hcast]
    | @further key next rest members inner changed henters _ ih =>
      rw [put_cons_cons]
      unfold Enters at henters
      cases hkey : members.get? (.text key) with
      | none =>
        rw [hkey] at henters
        cases henters
        simp only [ih]
      | some w =>
        rw [hkey] at henters
        obtain rfl : w = .record inner := henters
        simp only [ih]

/-- What is stored for a value where another one stood, given the room for showing values. -/
inductive Stores (room : Nat) : Data → Data → Data → Prop where
  /-- Nothing stood there. -/
  | fresh {v : Data} : Stores room .null v v
  /-- The value has a counterpart of the kind of the old one. -/
  | cast {old v : Data} {w : View Data}
      (hcast : Cast.toKind Data.reading room old.kind v = .ok (some w)) (hkind : w.kind = old.kind) :
      Stores room old v (.ofView w)
  /-- It has none. -/
  | asGiven {old v : Data} (hold : old.kind ≠ .null)
      (hcast : Cast.toKind Data.reading room old.kind v = .ok none) : Stores room old v v

/-- What is put is the value as it was given, or what it was cast to for the sake of the old one.
Null is no old value: what replaces it is stored as it is. -/
theorem stores_of_replacement {old : Option Data} {cast : Option (View Data)}
    (h : replacement Data.reading room old v = .ok cast) :
    Stores room (old.getD .null) v (stored cast v) := by
  cases old with
  | none =>
    cases h
    exact .fresh
  | some old =>
    cases cast with
    | some w => exact .cast h (Cast.kind_of_toKind h)
    | none =>
      -- what stands there as null is replaced without a cast, as if nothing were there
      by_cases hold : old.kind = .null
      · obtain rfl : old = .null := by
          cases old with
          | atom a => cases a with
            | null => rfl
            | number n => cases n <;> cases hold
            | _ => cases hold
          | _ => cases hold
        exact .fresh
      · exact .asGiven hold h

namespace Puts

/-- The value that is found where a value was put is the one that is stored there. -/
theorem stores (h : Puts room v keys members after) :
    Stores room (valueAt keys (.record members)) v (valueAt keys (.record after)) := by
  induction h with
  | last hcast =>
    rw [valueAt_set_self, valueAt_cons, valueAt_nil, valueAt_nil]
    exact stores_of_replacement hcast
  | further henters _ ih =>
    rw [valueAt_set_self, henters.valueAt_cons_cons]
    exact ih

/-- **What is found apart from the chain of keys stays the same.** By induction on the chain:
another key finds another member, and members that are not on the chain are kept. -/
theorem valueAt_apart (h : Puts room v keys members after) (hkeys : ¬keys <+: other)
    (hother : ¬other <+: keys) :
    valueAt other (.record after) = valueAt other (.record members) := by
  induction h generalizing other with
  | @last key members w _ =>
    cases other with
    | nil => exact absurd List.nil_prefix hother
    | cons first rest =>
      refine valueAt_set_of_ne (fun heq => hkeys ?_) rest
      rw [heq]
      exact List.cons_prefix_cons.2 ⟨rfl, List.nil_prefix⟩
  | @further key next rest members inner changed henters _ ih =>
    cases other with
    | nil => exact absurd List.nil_prefix hother
    | cons first others =>
      by_cases hfirst : first = key
      · subst hfirst
        rw [List.cons_prefix_cons] at hkeys hother
        have hrest := ih (fun hpre => hkeys ⟨rfl, hpre⟩) fun hpre => hother ⟨rfl, hpre⟩
        -- the other chain goes on, or else it would be a beginning of this one
        cases others with
        | nil => exact absurd ⟨rfl, List.nil_prefix⟩ hother
        | cons second others =>
          rw [valueAt_set_self, henters.valueAt_cons_cons]
          exact hrest
      · exact valueAt_set_of_ne hfirst others

/-- **Putting the value there again changes nothing.** By induction on the chain of keys, with the
same for casts at its end. -/
theorem again (h : Puts room v keys members after) : Puts room v keys after after := by
  induction h with
  | @last key members cast hcast =>
    have hkey := Members.get?_set_self members (.text key) (stored cast v)
    obtain ⟨later, hlater, hsame⟩ := Cast.again hcast
    rw [← hkey] at hlater
    have hagain : Puts room v [key] (members.set (.text key) (stored cast v)) _ := .last hlater
    rwa [hsame, Members.set_eq_self hkey] at hagain
  | @further key next rest members inner changed _ _ ih =>
    have hkey := Members.get?_set_self members (.text key) (Data.record changed)
    have hagain := Puts.further (by rw [Enters, hkey]; rfl) ih
    rwa [Members.set_eq_self hkey] at hagain

end Puts

/-- Of two paths none is a beginning of the other. -/
def Apart (path other : Glyphs) : Prop :=
  ¬keysOf path <+: keysOf other ∧ ¬keysOf other <+: keysOf path

/-- Settings that are a record are changed by putting a value into it. -/
theorem set_record (room : Nat) (members : Members Data) (path : Glyphs) (v : Data) :
    set (.record members) room path v
      = ((put room members v (keysOf path)).1, .record (put room members v (keysOf path)).2) := rfl

/-- A change that stores a value puts it into a record. -/
theorem puts_of_set {before after : Settings} {path : Glyphs}
    (h : before.set room path v = (.stored, after)) :
    ∃ members changed, before = .record members ∧ after = .record changed
      ∧ Puts room v (keysOf path) members changed := by
  cases before with
  | record members =>
    rw [set_record] at h
    obtain ⟨hstored, rfl⟩ := Prod.mk.inj h
    exact ⟨members, _, rfl, rfl, put_eq_stored_iff.1 (Prod.ext hstored rfl)⟩
  | _ => cases h

/-- A value that is found is not null, so that without a default the default null is found. -/
theorem Data.orDefault_null (v : Data) : v.orDefault .null = v := by
  unfold orDefault
  split
  · next hnull =>
    cases v with
    | atom a => cases a with
      | null => rfl
      | number n => cases n <;> cases hnull
      | _ => cases hnull
    | _ => cases hnull
  · rfl

/-- **The laws of a change that stores a value.** At its path the value is found that is stored for
it, or the default if that is null; it is of the kind of the value that stood there, if one did and
the new value has a counterpart of that kind. At all paths apart from it the settings are as they
were, and doing the change again does nothing. -/
theorem set_laws {before after : Settings} {path : Glyphs}
    (h : before.set room path v = (.stored, after)) :
    (∃ w, Stores room (before.get path .null) v w
        ∧ ∀ default, after.get path default = w.orDefault default)
      ∧ (∀ other, Apart path other → ∀ default, after.get other default = before.get other default)
      ∧ after.set room path v = (.stored, after) := by
  obtain ⟨members, changed, rfl, rfl, hputs⟩ := puts_of_set h
  refine ⟨⟨valueAt (keysOf path) (.record changed), ?_, fun default => get_eq _ path default⟩,
    fun other hapart default => ?_, ?_⟩
  · rw [get_eq, Data.orDefault_null]
    exact hputs.stores
  · rw [get_eq, get_eq, hputs.valueAt_apart hapart.1 hapart.2]
  · rw [set_record, put_eq_stored_iff.2 hputs.again]

/-- Settings in which nothing but the general level is set. -/
def levelOnly (level : String) : Settings := .fields [("debug", .fields [("level", .text level)])]

/-! ## Changes that fail -/

/-- What keeps a change from being made. -/
inductive Prevents (settings : Settings) (room : Nat) (keys : List Glyphs) (v : Data) :
    Change → Prop where
  /-- The settings are no record. -/
  | noRecord (hsettings : settings.members? = none) : Prevents settings room keys v .noRecord
  /-- On the way along the keys stands a value that is no record. -/
  | refused {front : List Glyphs} {w : Data} (hfront : front <+: keys) (hnil : front ≠ [])
      (hlast : front ≠ keys) (hfound : settings.at? front = some w) (hw : w.members? = none) :
      Prevents settings room keys v .refused
  /-- The value goes beyond the range of the kind of the one that it is to replace, or that is a text
  and the value lies too deep to be shown. -/
  | fault {old : Data} {why : Cast.Fault} (hfound : settings.at? keys = some old)
      (hcast : Cast.toKind Data.reading room old.kind v = .error why) :
      Prevents settings room keys v (.ofFault why)

variable {change : Change}

/-- What prevents a change in a record prevents it from outside, one key earlier. So the reasons are
given for the place where the change stops, and carried outwards. -/
theorem Prevents.further (hkey : members.get? (.text key) = some (.record inner))
    (h : Prevents (.record inner) room keys v change) :
    Prevents (.record members) room (key :: keys) v change := by
  cases h with
  | noRecord hsettings => cases hsettings
  | refused hfront hnil hlast hfound hw =>
    refine .refused (List.cons_prefix_cons.2 ⟨rfl, hfront⟩) (List.cons_ne_nil _ _)
      (fun heq => hlast (List.cons.inj heq).2) ?_ hw
    rw [Data.at?_record_cons, hkey]
    exact hfound
  | fault hfound hcast =>
    refine .fault ?_ hcast
    rw [Data.at?_record_cons, hkey]
    exact hfound

/-- Where nothing is, every value can be put. -/
theorem exists_puts_nil (room : Nat) (v : Data) (key : Glyphs) (rest : List Glyphs) :
    ∃ after, Puts room v (key :: rest) [] after := by
  induction rest generalizing key with
  | nil => exact ⟨_, .last rfl⟩
  | cons next rest ih =>
    obtain ⟨changed, hchanged⟩ := ih next
    have henters : Enters [] key [] := rfl
    exact ⟨_, .further henters hchanged⟩

/-- **A change that fails at some key has changed nothing before.** A record is only made where
nothing stands on the way, and what is put into a new record meets nothing that could prevent it. -/
theorem put_of_failed {key : Glyphs} {rest : List Glyphs}
    (h : put room members v (key :: rest) = (change, after)) (hfailed : change ≠ .stored) :
    after = members ∧ Prevents (.record members) room (key :: rest) v change := by
  induction rest generalizing key members after with
  | nil =>
    -- only a cast can fail at the last key, and for that something has to be there
    rw [put_singleton] at h
    cases hkey : members.get? (.text key) with
    | none =>
      rw [hkey] at h
      cases h
      exact absurd rfl hfailed
    | some old =>
      rw [hkey, replacement] at h
      cases hcast : Cast.toKind Data.reading room (Data.reading.view old).kind v with
      | ok cast =>
        rw [hcast] at h
        cases h
        exact absurd rfl hfailed
      | error why =>
        rw [hcast] at h
        cases h
        exact ⟨rfl, .fault ((Data.at?_record_singleton members key).trans hkey) hcast⟩
  | cons next rest ih =>
    rw [put_cons_cons] at h
    cases hkey : members.get? (.text key) with
    | none =>
      rw [hkey] at h
      -- in a new record nothing fails
      obtain ⟨changed, hputs⟩ := exists_puts_nil room v next rest
      rw [put_eq_stored_iff.2 hputs] at h
      exact absurd (Prod.mk.inj h).1.symm hfailed
    | some w =>
      rw [hkey] at h
      cases w with
      | record inner =>
        rcases hput : put room inner v (next :: rest) with ⟨inside, changed⟩
        simp only [hput] at h
        obtain ⟨rfl, rfl⟩ := Prod.mk.inj h
        obtain ⟨rfl, hprevents⟩ := ih hput
        exact ⟨Members.set_eq_self hkey, hprevents.further hkey⟩
      -- what is no record stops the path here
      | atom _ | list _ =>
        cases h
        have hfront : [key] <+: key :: next :: rest :=
          List.cons_prefix_cons.2 ⟨rfl, List.nil_prefix⟩
        exact ⟨rfl, .refused hfront (List.cons_ne_nil _ _) (by simp)
          ((Data.at?_record_singleton members key).trans hkey) rfl⟩

theorem keysOf_ne_nil (path : Glyphs) : keysOf path ≠ [] := Text.splitAt_ne_nil _ path

/-- No cast fails as settings do that are no record. -/
theorem Change.ofFault_ne_noRecord (why : Cast.Fault) : ofFault why ≠ .noRecord := by
  cases why <;> decide

/-- Only settings that are no record fail for that. In a record something else stops the change, if
anything does. -/
theorem set_eq_noRecord_iff {settings : Settings} {path : Glyphs} :
    (settings.set room path v).1 = .noRecord ↔ settings.members? = none := by
  cases settings with
  | record members =>
    refine iff_of_false (fun h => ?_) (by simp [Data.members?])
    rw [set_record] at h
    cases hkeys : keysOf path with
    | nil => exact keysOf_ne_nil path hkeys
    | cons key rest =>
      rw [hkeys] at h
      obtain ⟨-, hprevents⟩ := put_of_failed (Prod.ext h rfl) (by simp)
      generalize hchange : Change.noRecord = change at hprevents
      cases hprevents with
      | noRecord hsettings => cases hsettings
      | refused => cases hchange
      | fault => exact Change.ofFault_ne_noRecord _ hchange.symm
  | _ => exact iff_of_true rfl rfl

/-- A change puts the value into a record, or it does nothing. There is no third case: all that can
fail does so before anything is put. -/
theorem puts_or_eq_self (settings : Settings) (room : Nat) (path : Glyphs) (v : Data) :
    (∃ members changed, settings = .record members
        ∧ settings.set room path v = (.stored, .record changed)
        ∧ Puts room v (keysOf path) members changed)
      ∨ ∃ change, settings.set room path v = (change, settings) := by
  cases settings with
  | record members =>
    rcases hput : put room members v (keysOf path) with ⟨change, changed⟩
    have hset : set (.record members) room path v = (change, .record changed) := by
      rw [set_record, hput]
    -- a change that was stored, or one that left the record alone
    by_cases hstored : change = .stored
    · subst hstored
      exact .inl ⟨members, changed, rfl, hset, put_eq_stored_iff.1 hput⟩
    · cases hkeys : keysOf path with
      | nil => exact absurd hkeys (keysOf_ne_nil path)
      | cons key rest =>
        rw [hkeys] at hput
        obtain ⟨rfl, -⟩ := put_of_failed hput hstored
        exact .inr ⟨change, hset⟩
  | _ => exact .inr ⟨.noRecord, rfl⟩

/-- A change, whatever comes of it, changes nothing at the paths apart from its own. -/
theorem get_set_of_apart {settings : Settings} {path other : Glyphs} (hapart : Apart path other)
    (room : Nat) (v default : Data) :
    (settings.set room path v).2.get other default = settings.get other default := by
  rcases puts_or_eq_self settings room path v with
    ⟨members, changed, rfl, hset, hputs⟩ | ⟨change, hset⟩
  · rw [hset, get_eq, get_eq, hputs.valueAt_apart hapart.1 hapart.2]
  · rw [hset]

/-- The same change once more has the same outcome and does nothing. -/
theorem set_again (settings : Settings) (room : Nat) (path : Glyphs) (v : Data) :
    (settings.set room path v).2.set room path v = settings.set room path v := by
  rcases puts_or_eq_self settings room path v with
    ⟨members, changed, rfl, hset, hputs⟩ | ⟨change, hset⟩
  · rw [hset, set_record, put_eq_stored_iff.2 hputs.again]
  · rw [hset]
    exact hset

/-- **A change that fails leaves the settings exactly as they are**, and something prevents it: the
settings are no record, or a value on the way is none, or the new value goes beyond the range of the
old one's kind, or it lies too deep to be shown where the old one is a text. -/
theorem unchanged_of_failed {settings after : Settings} {room : Nat} {path : Glyphs} {v : Data}
    {change : Change} (h : settings.set room path v = (change, after)) (hfailed : change ≠ .stored) :
    after = settings ∧ Prevents settings room (keysOf path) v change := by
  cases settings with
  | record members =>
    cases hkeys : keysOf path with
    | nil => exact absurd hkeys (keysOf_ne_nil path)
    | cons key rest =>
      rw [set_record, hkeys] at h
      rcases hput : put room members v (key :: rest) with ⟨inside, changed⟩
      simp only [hput] at h
      obtain ⟨rfl, rfl⟩ := Prod.mk.inj h
      obtain ⟨rfl, hprevents⟩ := put_of_failed hput hfailed
      exact ⟨rfl, hprevents⟩
  | _ =>
    cases h
    exact ⟨rfl, .noRecord rfl⟩

/-- A level is a text, in which nothing can be put. -/
theorem unchanged_of_failed_levelOnly :
    ∃ after, (levelOnly "INFO").set 0 "debug.level.general" (.int 10) = (.refused, after)
      ∧ after = levelOnly "INFO"
      ∧ Prevents (levelOnly "INFO") 0 (keysOf "debug.level.general") (.int 10) .refused := by
  have hset : (levelOnly "INFO").set 0 "debug.level.general" (.int 10)
      = (.refused, levelOnly "INFO") := rfl
  have hfailed : Change.refused ≠ .stored := by decide
  exact ⟨_, hset, unchanged_of_failed hset hfailed⟩

end BlockTheme.Settings
