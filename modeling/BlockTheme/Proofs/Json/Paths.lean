import BlockTheme.Proofs.Json.Cleaning
import Mathlib.Data.List.Nodup
import Mathlib.Data.List.Perm.Basic

/-!
# What stands at the end of a path

In values in whose objects every key stands once, a path leads to the same value in the cleaned
value unless nothing is left of it (`Json.at?_clean`). The values inside an object are those that
paths lead to, each by one path (`Fields.mem_parts_iff`, `Fields.nodup_paths`), and the order of
members does not matter to where a path leads (`Json.Reordered.at?`).
-/

namespace BlockTheme

/-! ## Lookups in objects with different keys -/

namespace Fields

/-- Where keys are different a member is found exactly if it is there. With a key that stands twice
the earlier member would hide the later one. -/
theorem get?_eq_some_iff_mem {fields : Fields} (h : fields.keys.Nodup) {key : String} {v : Json} :
    fields.get? key = some v ↔ (key, v) ∈ fields := by
  refine ⟨mem_of_get?, fun hmem => ?_⟩
  induction fields with
  | nil => simp at hmem
  | cons member rest ih =>
    obtain ⟨name, w⟩ := member
    obtain ⟨hname, hrest⟩ := List.nodup_cons.1 h
    rw [get?_cons]
    rcases List.mem_cons.1 hmem with heq | hmem
    · obtain ⟨rfl, rfl⟩ := Prod.mk.inj heq
      rw [if_pos rfl]
    · have hkey : key ∈ keys rest := List.mem_map.2 ⟨(key, v), hmem, rfl⟩
      have hne : key ≠ name := fun heq => hname (heq ▸ hkey)
      rw [if_neg hne, ih hrest hmem]

/-- The order of members does not matter to lookups. -/
theorem get?_eq_of_perm {a b : Fields} (hperm : a.Perm b) (h : a.keys.Nodup) (key : String) :
    a.get? key = b.get? key := by
  have hb : b.keys.Nodup := (hperm.map Prod.fst).nodup h
  refine Option.ext fun v => ?_
  rw [get?_eq_some_iff_mem h, get?_eq_some_iff_mem hb, hperm.mem_iff]

/-- What is left of a value after cleaning, if anything is. -/
def kept (v : Json) : Option Json := if v.clean.isVoid then none else some v.clean

/-- A value that is no object is kept if it says something. -/
theorem kept_of_not_isObject {v : Json} (h : v.isObject = false) :
    kept v = if v.IsNothing then none else some v := by
  rw [kept, Json.clean_of_not_isObject h]
  exact if_congr (Json.isVoid_iff_of_not_isObject h) rfl rfl

/-- An object is kept as far as something is left of it. -/
theorem kept_object (members : Fields) :
    kept (.object members) = if members.clean = [] then none else some (.object members.clean) := by
  rw [kept, clean_object]
  exact if_congr (by simp [Json.isVoid]) rfl rfl

/-- A member of a cleaned object is the member of the object, cleaned, if that is kept. Keys that
are different are needed: if the first of two equal keys is dropped, the second one comes to light.
-/
theorem get?_clean {fields : Fields} (h : fields.keys.Nodup) (key : String) :
    fields.clean.get? key = (fields.get? key).bind kept := by
  induction fields with
  | nil => simp [get?]
  | cons member rest ih =>
    obtain ⟨name, v⟩ := member
    obtain ⟨hname, hrest⟩ := List.nodup_cons.1 h
    -- the name is not repeated, so that a dropped member leaves nothing behind
    have hmissing : get? rest name = none := get?_eq_none_of_forall fun field hfield heq =>
      hname (List.mem_map.2 ⟨field, hfield, heq⟩)
    rw [clean_cons, get?_cons]
    by_cases hkey : key = name
    · subst hkey
      rw [if_pos rfl, Option.bind_some, kept]
      split
      · rw [ih hrest, hmissing, Option.bind_none]
      · rw [get?_cons, if_pos rfl]
    · rw [if_neg hkey, ← ih hrest]
      split
      · rfl
      · rw [get?_cons, if_neg hkey]

end Fields

namespace Json

theorem at?_append (v : Json) (front back : List String) :
    v.at? (front ++ back) = (v.at? front).bind (·.at? back) :=
  List.foldlM_append

/-- What is found in an object with different keys has different keys itself. -/
theorem Keyed.get? {members : Fields} (h : (Json.object members).Keyed) {key : String} {v : Json}
    (hget : members.get? key = some v) : v.Keyed :=
  Fields.Keyed.of_mem ((Fields.keyed_object members).1 h) (Fields.mem_of_get? hget)

theorem Keyed.nodup_keys {members : Fields} (h : (Json.object members).Keyed) :
    members.keys.Nodup := Fields.Keyed.nodup_keys ((Fields.keyed_object members).1 h)

/-- Nothing is found in a value that says nothing. -/
theorem at?_cons_of_isVoid {v : Json} (h : v.isVoid = true) (key : String) (rest : List String) :
    v.at? (key :: rest) = none := by
  cases v with
  | object members =>
    obtain rfl := List.isEmpty_iff.1 h
    rfl
  | _ => rfl

/-- **A path leads to the same value in a cleaned value**, cleaned, unless nothing is left of it. By
induction on the path. -/
theorem at?_clean {v : Json} (h : v.Keyed) {path : List String} (hpath : path ≠ []) :
    v.clean.at? path = (v.at? path).bind Fields.kept := by
  -- on the path: what is kept at its first key decides about all that lies below
  induction path generalizing v with
  | nil => exact absurd rfl hpath
  | cons key rest ih =>
    cases v with
    | object members =>
      rw [Fields.clean_object, at?_object_cons, at?_object_cons, Fields.get?_clean h.nodup_keys]
      cases hget : Fields.get? members key with
      | none => rfl
      | some w =>
        rw [Option.bind_some, Option.bind_some, Fields.kept]
        cases rest with
        | nil =>
          show _ = Fields.kept w
          rw [Fields.kept]
          split <;> rfl
        | cons next rest =>
          rw [← ih (h.get? hget) (List.cons_ne_nil next rest)]
          split
          -- a part that is dropped had nothing below it after the cleaning
          · next hvoid => rw [Option.bind_none, at?_cons_of_isVoid hvoid]
          · rfl
    | _ => rfl

/-! ## The values inside and the paths to them -/

end Json

namespace Fields

/-- A path leads into an object through one of its keys. So no path to a part is empty, and paths
through different keys are different. -/
theorem head_mem_keys {fields : Fields} {path : List String} {v : Json}
    (h : (path, v) ∈ fields.parts) : ∃ key rest, path = key :: rest ∧ key ∈ fields.keys := by
  induction fields with
  | nil => simp at h
  | cons member rest ih =>
    obtain ⟨name, w⟩ := member
    rw [parts_cons, List.mem_append, List.mem_cons, List.mem_map] at h
    rcases h with (heq | ⟨below, -, heq⟩) | h
    · obtain ⟨rfl, -⟩ := Prod.mk.inj heq
      exact ⟨name, [], rfl, List.mem_cons_self⟩
    · obtain ⟨rfl, -⟩ := Prod.mk.inj heq
      exact ⟨name, below.1, rfl, List.mem_cons_self⟩
    · obtain ⟨key, path, rfl, hkey⟩ := ih h
      exact ⟨key, path, rfl, List.mem_cons_of_mem _ hkey⟩

theorem nil_not_mem_parts (w v : Json) : ([], v) ∉ w.parts := by
  cases w with
  | object members =>
    rw [parts_object]
    intro hmem
    obtain ⟨key, rest, hpath, -⟩ := head_mem_keys hmem
    simp at hpath
  | _ => simp [Json.parts]

/-- The values inside an object of which the first member has a key of its own. A path through this
key leads into the first member, any other one into the rest. -/
theorem mem_parts_cons {name : String} {w : Json} {rest : Fields} (hname : name ∉ rest.keys)
    {key : String} {path : List String} {v : Json} :
    (key :: path, v) ∈ parts ((name, w) :: rest)
      ↔ if key = name then (path = [] ∧ v = w) ∨ (path, v) ∈ w.parts
        else (key :: path, v) ∈ parts rest := by
  rw [parts_cons, List.mem_append, List.mem_cons]
  split
  · next hkey =>
    subst hkey
    have hrest : (key :: path, v) ∉ parts rest := by
      intro hmem
      obtain ⟨other, below, heq, hother⟩ := head_mem_keys hmem
      exact hname ((List.cons.inj heq).1 ▸ hother)
    simp [hrest]
  · next hkey => simp [hkey, Ne.symm hkey]

/-- **The values inside an object are those that paths lead to.** That needs different keys: of two
members with one key a path finds the first. -/
theorem mem_parts_iff {fields : Fields} (h : fields.Keyed) {key : String} {path : List String}
    {v : Json} :
    (key :: path, v) ∈ fields.parts ↔ (Json.object fields).at? (key :: path) = some v := by
  -- below a value, from what the induction gives for an object
  have hbelow : ∀ {w : Json} {path : List String}, (∀ members, w = .object members →
      ∀ next rest, (next :: rest, v) ∈ parts members ↔ w.at? (next :: rest) = some v) →
      ((path = [] ∧ v = w) ∨ (path, v) ∈ w.parts ↔ w.at? path = some v) := by
    intro w path hw
    cases path with
    | nil =>
      have hroot : ([], v) ∉ w.parts := nil_not_mem_parts w v
      simp [hroot, Json.at?, eq_comm]
    | cons next rest =>
      cases w with
      | object members =>
        rw [parts_object, ← hw members rfl]
        simp
      | _ => simp [Json.parts, Json.at?, Json.fields?]
  induction fields using inside_induction generalizing key path with
  | nil => simp [Json.at?_object_cons, get?]
  | leaf name w rest hw ih =>
    obtain ⟨hname, -, hrest⟩ := (keyed_cons name w rest).1 h
    rw [mem_parts_cons hname, Json.at?_object_cons, get?_cons]
    split
    · exact hbelow fun members hobject => by simp [hobject, Json.isObject] at hw
    · exact ih hrest
  | object name members rest ihmembers ihrest =>
    obtain ⟨hname, hmembers, hrest⟩ := (keyed_cons name _ rest).1 h
    rw [mem_parts_cons hname, Json.at?_object_cons, get?_cons]
    split
    · refine hbelow fun other hother next rest => ?_
      obtain rfl := Json.object.inj hother
      exact ihmembers hmembers
    · exact ihrest hrest

/-- The paths through the first member, from those in its value. With this no path leads to two
parts of an object with different keys, by induction on its members. -/
theorem nodup_paths_cons {name : String} {w : Json} {rest : Fields} (hname : name ∉ keys rest)
    (hw : (w.parts.map Prod.fst).Nodup) (hrest : ((parts rest).map Prod.fst).Nodup) :
    ((parts ((name, w) :: rest)).map Prod.fst).Nodup := by
  -- a path below another member begins with that member's name
  have hother : ∀ path, name :: path ∉ (parts rest).map Prod.fst := by
    intro path hmem
    obtain ⟨⟨_, v⟩, hmem, rfl⟩ := List.mem_map.1 hmem
    obtain ⟨key, below, hpath, hkey⟩ := head_mem_keys hmem
    exact hname ((List.cons.inj hpath).1 ▸ hkey)
  -- no part of the value is at the empty path, which is left to the value
  have hroot : [] ∉ w.parts.map Prod.fst := by
    intro hmem
    obtain ⟨⟨_, v⟩, hv, rfl⟩ := List.mem_map.1 hmem
    exact nil_not_mem_parts w v hv
  have hpaths : (parts ((name, w) :: rest)).map Prod.fst
      = ([] :: w.parts.map Prod.fst).map (List.cons name) ++ (parts rest).map Prod.fst := by
    rw [parts_cons, List.map_append, List.map_cons, List.map_cons, List.map_map, List.map_map]
    rfl
  rw [hpaths, List.nodup_append]
  refine ⟨(List.nodup_cons.2 ⟨hroot, hw⟩).map List.cons_injective, hrest, ?_⟩
  rintro path hpath _ hmem rfl
  obtain ⟨below, -, rfl⟩ := List.mem_map.1 hpath
  exact hother below hmem

/-- **To every value inside there is one path.** By induction on the object and the objects inside
it. -/
theorem nodup_paths {fields : Fields} (h : fields.Keyed) : (fields.parts.map Prod.fst).Nodup := by
  induction fields using inside_induction with
  | nil => simp
  | leaf name w rest hw ih =>
    obtain ⟨hname, -, hrest⟩ := (keyed_cons name w rest).1 h
    exact nodup_paths_cons hname (by simp [Json.parts_of_not_isObject hw]) (ih hrest)
  | object name members rest ihmembers ihrest =>
    obtain ⟨hname, hmembers, hrest⟩ := (keyed_cons name _ rest).1 h
    exact nodup_paths_cons hname (by simpa using ihmembers hmembers) (ihrest hrest)

/-- The leaves of an object are the values at the ends of paths that are no objects. -/
theorem mem_leaves_iff {fields : Fields} (h : fields.Keyed) {key : String} {path : List String}
    {v : Json} :
    (key :: path, v) ∈ fields.leaves
      ↔ (Json.object fields).at? (key :: path) = some v ∧ v.isObject = false := by
  rw [leaves, List.mem_filter, mem_parts_iff h, Bool.not_eq_true']

/-- The leaves of an object with different keys stand at different paths. -/
theorem nodup_leaves {fields : Fields} (h : fields.Keyed) : (fields.leaves.map Prod.fst).Nodup :=
  (List.filter_sublist.map Prod.fst).nodup (nodup_paths h)

end Fields

namespace Json

/-! ## Reordered members -/

mutual

/-- Values that differ in the order of members alone, and not inside arrays. -/
inductive Reordered : Json → Json → Prop
  | same (v : Json) : Reordered v v
  | object {a b c : Fields} (hvalues : ReorderedMembers a b) (horder : b.Perm c) :
    Reordered (.object a) (.object c)

/-- Members in the same order, with values that differ in the order of members alone. -/
inductive ReorderedMembers : List (String × Json) → List (String × Json) → Prop
  | nil : ReorderedMembers [] []
  | cons {key : String} {v w : Json} {a b : List (String × Json)} (hvalue : Reordered v w)
    (hrest : ReorderedMembers a b) : ReorderedMembers ((key, v) :: a) ((key, w) :: b)

end

/-- Both objects have the same keys in the same order; what may be in another order is what the
values hold. -/
theorem ReorderedMembers.keys_eq {a b : Fields} (h : ReorderedMembers a b) : a.keys = b.keys := by
  induction a generalizing b with
  | nil => cases h; rfl
  | cons member rest ih =>
    cases h with
    | cons _ hrest => rw [Fields.keys_cons, Fields.keys_cons, ih hrest]

/-- A key finds values that are the same up to order, or nothing on either side. -/
theorem ReorderedMembers.get? {a b : Fields} (h : ReorderedMembers a b) (key : String) :
    Option.Rel Reordered (a.get? key) (b.get? key) := by
  induction a generalizing b with
  | nil => cases h; exact .none
  | cons member rest ih =>
    cases h with
    | cons hvalue hrest =>
      rw [Fields.get?_cons, Fields.get?_cons]
      split
      · exact .some hvalue
      · exact ih hrest

/-- **A path leads to values that differ in the order of members alone.** By induction on the path,
and nothing is found on the one side that is not found on the other. -/
theorem Reordered.at? {v w : Json} (h : Reordered v w) (hv : v.Keyed) (path : List String) :
    Option.Rel Reordered (v.at? path) (w.at? path) := by
  induction path generalizing v w with
  | nil => exact .some h
  | cons key rest ih =>
    cases h with
    | same v =>
      cases v.at? (key :: rest) with
      | none => exact .none
      | some w => exact .some (.same w)
    | @object a b c hvalues horder =>
      -- the order does not matter to a lookup, since no key stands twice
      have hkeys : b.keys.Nodup := hvalues.keys_eq ▸ hv.nodup_keys
      have hget := hvalues.get? key
      rw [Fields.get?_eq_of_perm horder hkeys] at hget
      rw [at?_object_cons, at?_object_cons]
      cases ha : a.get? key with
      | none =>
        rw [ha] at hget
        cases hc : c.get? key with
        | none => exact .none
        | some w => rw [hc] at hget; cases hget
      | some x =>
        rw [ha] at hget
        cases hc : c.get? key with
        | none => rw [hc] at hget; cases hget
        | some y =>
          rw [hc] at hget
          cases hget with
          -- both have the member, and the path goes on in it
          | some hxy => exact ih hxy (hv.get? ha)

/-- Values that are no objects have no members whose order could differ. -/
theorem Reordered.eq_of_not_isObject {v w : Json} (h : Reordered v w) (hv : v.isObject = false) :
    v = w := by
  cases h with
  | same => rfl
  | object _ _ => simp [isObject] at hv

end Json

end BlockTheme
