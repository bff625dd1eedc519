import BlockTheme.Proofs.Json.Parts

/-!
# What cleaning leaves of an object

A path of keys leads from an object to a value inside it. `Fields.parts` lists the values that paths
lead to, in the order in which they stand in the object, and `Fields.leaves` those of them that are
no objects. Cleaning drops the leaves that say nothing, and with them the objects in which nothing is
left (`Fields.clean_keeps_leaves`). What has neither is clean already (`Fields.clean_eq_self`).
-/

namespace BlockTheme

namespace Json

/-! ## The values inside an object -/

mutual

/-- The values inside a value, with the paths that lead to them. Arrays are not looked into. -/
def parts : Json → List (List String × Json)
  | .object members => partsOf members
  | _ => []

/-- Each member, and after it the values inside its value. -/
def partsOf : List (String × Json) → List (List String × Json)
  | [] => []
  | (key, v) :: rest => ([key], v) :: (parts v).map (Prod.map (key :: ·) id) ++ partsOf rest

end

/-- Whether a value is an object. -/
def isObject : Json → Bool
  | .object _ => true
  | _ => false

/-- Null or the empty text. -/
def IsNothing (v : Json) : Prop := v = .null ∨ v = .string ""

instance : DecidablePred IsNothing
  | .null => isTrue (Or.inl rfl)
  | .string s => decidable_of_iff (s = "") (by simp [IsNothing])
  | .bool _ | .number _ | .array _ | .object _ => isFalse (by simp [IsNothing])

/-- A value that says something: no null, no empty text and no empty object. -/
def Speaks (v : Json) : Prop := ¬v.IsNothing ∧ v ≠ .object []

/-- What the program drops, apart from objects, is what says nothing. -/
theorem isVoid_iff_of_not_isObject {v : Json} (h : v.isObject = false) :
    v.isVoid = true ↔ v.IsNothing := by
  cases v <;> simp_all [isVoid, IsNothing, isObject]

/-- A value that is no object is not cleaned. In particular nothing is taken out of arrays. -/
theorem clean_of_not_isObject {v : Json} (h : v.isObject = false) : v.clean = v := by
  cases v <;> simp_all [clean, isObject]

theorem parts_of_not_isObject {v : Json} (h : v.isObject = false) : v.parts = [] := by
  cases v <;> simp_all [parts, isObject]

end Json

namespace Fields

/-- The values inside an object, with the paths that lead to them. -/
def parts (fields : Fields) : List (List String × Json) := Json.partsOf fields

/-- The values inside an object that are no objects, with the paths that lead to them. -/
def leaves (fields : Fields) : List (List String × Json) :=
  fields.parts.filter fun part => !part.2.isObject

/-- Objects are built up member by member, and from the objects in their members. Cleaning, leaves
and parts recurse in this way and take an array, like a number or a text, as one leaf; so this is
the induction that fits them, and that of `Json` itself is not. -/
@[elab_as_elim]
theorem inside_induction {P : Fields → Prop} (nil : P [])
    (leaf : ∀ key v rest, v.isObject = false → P rest → P ((key, v) :: rest))
    (object : ∀ key members rest, P members → P rest → P ((key, .object members) :: rest)) :
    ∀ fields, P fields
  | [] => nil
  | (key, .object members) :: rest =>
    object key members rest (inside_induction nil leaf object members)
      (inside_induction nil leaf object rest)
  | (key, .null) :: rest => leaf key _ rest rfl (inside_induction nil leaf object rest)
  | (key, .bool _) :: rest => leaf key _ rest rfl (inside_induction nil leaf object rest)
  | (key, .number _) :: rest => leaf key _ rest rfl (inside_induction nil leaf object rest)
  | (key, .string _) :: rest => leaf key _ rest rfl (inside_induction nil leaf object rest)
  | (key, .array _) :: rest => leaf key _ rest rfl (inside_induction nil leaf object rest)

@[simp] theorem parts_nil : parts [] = [] := by simp [parts, Json.partsOf]

/-- A member comes first, then what is inside its value, then the rest. -/
theorem parts_cons (key : String) (v : Json) (rest : Fields) :
    parts ((key, v) :: rest)
      = ([key], v) :: v.parts.map (Prod.map (key :: ·) id) ++ parts rest := by
  simp [parts, Json.partsOf]

/-- What is inside an object, as a value and as fields. -/
@[simp] theorem parts_object (members : Fields) : (Json.object members).parts = members.parts := by
  simp [parts, Json.parts]

@[simp] theorem leaves_nil : leaves [] = [] := by simp [leaves]

/-- The leaves of a member that is an object are those below it, each with one key more in its path.
-/
theorem leaves_cons_object (key : String) (members rest : Fields) :
    leaves ((key, .object members) :: rest)
      = (leaves members).map (Prod.map (key :: ·) id) ++ leaves rest := by
  simp only [leaves, parts_cons, parts_object, List.cons_append, List.filter_append,
    List.filter_map, Json.isObject, Bool.not_true, Bool.false_eq_true, not_false_eq_true,
    List.filter_cons_of_neg]
  rfl

theorem leaves_cons (key : String) {v : Json} (h : v.isObject = false) (rest : Fields) :
    leaves ((key, v) :: rest) = ([key], v) :: leaves rest := by
  simp [leaves, parts_cons, Json.parts_of_not_isObject h, h]

/-! ## What holds of all values inside -/

section Inside

variable {P : Json → Prop}

/-- A property of all values inside an object, member by member. -/
theorem forall_parts_cons (key : String) (v : Json) (rest : Fields) :
    (∀ part ∈ parts ((key, v) :: rest), P part.2)
      ↔ (P v ∧ ∀ part ∈ v.parts, P part.2) ∧ ∀ part ∈ parts rest, P part.2 := by
  rw [parts_cons, List.forall_mem_append, List.forall_mem_cons, List.forall_mem_map]
  rfl

/-- What holds inside an object holds of the values of its members, and inside these. -/
theorem inside_of_mem {fields : Fields} (h : ∀ part ∈ fields.parts, P part.2) {key : String}
    {v : Json} (hmem : (key, v) ∈ fields) : P v ∧ ∀ part ∈ v.parts, P part.2 := by
  induction fields with
  | nil => simp at hmem
  | cons member rest ih =>
    obtain ⟨name, w⟩ := member
    obtain ⟨hfirst, hrest⟩ := (forall_parts_cons name w rest).1 h
    rcases List.mem_cons.1 hmem with heq | hmem
    · obtain ⟨rfl, rfl⟩ := Prod.mk.inj heq
      exact hfirst
    · exact ih hrest hmem

/-- Setting a member puts its value inside, with all that is in it, and nothing else that was not
there before. -/
theorem forall_parts_set {fields : Fields} (h : ∀ part ∈ fields.parts, P part.2) (key : String)
    {v : Json} (hv : P v ∧ ∀ part ∈ v.parts, P part.2) :
    ∀ part ∈ (fields.set key v).parts, P part.2 := by
  induction fields with
  | nil => exact (forall_parts_cons key v []).2 ⟨hv, h⟩
  | cons member rest ih =>
    obtain ⟨name, w⟩ := member
    obtain ⟨hfirst, hrest⟩ := (forall_parts_cons name w rest).1 h
    rw [set]
    split
    · exact (forall_parts_cons name v rest).2 ⟨hv, hrest⟩
    · exact (forall_parts_cons name w _).2 ⟨hfirst, ih hrest⟩

end Inside

/-! ## Cleaning member by member -/

@[simp] theorem clean_nil : Fields.clean [] = [] := by simp [Fields.clean, Json.cleanMembers]

/-- A member is cleaned and then dropped if it is void. The order matters: an object may be void
only once it is clean. -/
theorem clean_cons (key : String) (v : Json) (rest : Fields) :
    Fields.clean ((key, v) :: rest)
      = if v.clean.isVoid then rest.clean else (key, v.clean) :: rest.clean := by
  simp [Fields.clean, Json.cleanMembers]

@[simp] theorem clean_object (members : Fields) :
    (Json.object members).clean = .object members.clean := by
  simp [Fields.clean, Json.clean]

/-- A value that is no object is kept exactly if it says something. -/
theorem clean_cons_leaf (key : String) {v : Json} (h : v.isObject = false) (rest : Fields) :
    Fields.clean ((key, v) :: rest)
      = if v.IsNothing then rest.clean else (key, v) :: rest.clean := by
  rw [clean_cons, Json.clean_of_not_isObject h]
  exact if_congr (Json.isVoid_iff_of_not_isObject h) rfl rfl

/-- An object is kept exactly if something is left in it. -/
theorem clean_cons_object (key : String) (members rest : Fields) :
    Fields.clean ((key, .object members) :: rest)
      = if members.clean = [] then rest.clean
        else (key, .object members.clean) :: rest.clean := by
  rw [clean_cons, clean_object]
  exact if_congr (by simp [Json.isVoid]) rfl rfl

/-! ## The leaves that are left -/

/-- The leaves of a list that say something. -/
def saying (leaves : List (List String × Json)) : List (List String × Json) :=
  leaves.filter fun leaf => ¬leaf.2.IsNothing

/-- Of the leaves those that say something are left, and no leaf changes. By induction on the object
and the objects inside it. -/
theorem leaves_clean (fields : Fields) : leaves fields.clean = saying (leaves fields) := by
  induction fields using inside_induction with
  | nil => simp [saying]
  | leaf key v rest hv ih =>
    rw [clean_cons_leaf key hv, leaves_cons key hv]
    by_cases hnothing : v.IsNothing
    · rw [if_pos hnothing, ih, saying, saying, List.filter_cons_of_neg (by simpa using hnothing)]
    · rw [if_neg hnothing, leaves_cons key hv, ih, saying, saying,
        List.filter_cons_of_pos (by simpa using hnothing)]
  | object key members rest ihmembers ihrest =>
    have hbelow : saying ((leaves members).map (Prod.map (key :: ·) id))
        = (leaves members.clean).map (Prod.map (key :: ·) id) := by
      rw [ihmembers, saying, saying, List.filter_map]
      rfl
    rw [clean_cons_object, leaves_cons_object, saying, List.filter_append, ← saying, ← saying,
      hbelow, ← ihrest]
    -- an object that is dropped has no leaves left
    by_cases hempty : members.clean = []
    · rw [if_pos hempty, hempty]
      rfl
    · rw [if_neg hempty, leaves_cons_object]

/-- All that is left says something. An object among the members is cleaned first, and only then it
is asked whether anything is left of it. -/
theorem speaks_parts_clean (fields : Fields) : ∀ part ∈ fields.clean.parts, part.2.Speaks := by
  induction fields using inside_induction with
  | nil => simp
  | leaf key v rest hv ih =>
    rw [clean_cons_leaf key hv]
    split
    · exact ih
    -- a leaf that is kept says something, and is no object, not even an empty one
    · next hspeaks =>
      have hobject : v ≠ .object [] := by
        rintro rfl
        simp [Json.isObject] at hv
      rw [forall_parts_cons, Json.parts_of_not_isObject hv]
      exact ⟨⟨⟨hspeaks, hobject⟩, List.forall_mem_nil _⟩, ih⟩
  | object key members rest ihmembers ihrest =>
    rw [clean_cons_object]
    split
    · exact ihrest
    -- an object that is kept has something left in it
    · next hleft =>
      have hspeaks : (Json.object members.clean).Speaks :=
        ⟨by simp [Json.IsNothing], by simpa using hleft⟩
      rw [forall_parts_cons, parts_object]
      exact ⟨⟨hspeaks, ihmembers⟩, ihrest⟩

/-- **An object in which everything says something is clean.** Applied to what cleaning leaves, it
shows that cleaning twice is cleaning once. -/
theorem clean_eq_self {fields : Fields} (h : ∀ part ∈ fields.parts, part.2.Speaks) :
    fields.clean = fields := by
  induction fields using inside_induction with
  | nil => simp
  | leaf key v rest hv ih =>
    obtain ⟨⟨⟨hspeaks, -⟩, -⟩, hrest⟩ := (forall_parts_cons key v rest).1 h
    rw [clean_cons_leaf key hv, if_neg hspeaks, ih hrest]
  | object key members rest ihmembers ihrest =>
    obtain ⟨⟨⟨-, hfilled⟩, hmembers⟩, hrest⟩ := (forall_parts_cons key _ rest).1 h
    rw [parts_object] at hmembers
    rw [clean_cons_object, ihmembers hmembers, ihrest hrest,
      if_neg fun hempty => hfilled (by rw [hempty])]

/-- **Cleaning removes the empty parts and nothing else.** The leaves of a clean object are those of
the object that say something, in their order; at the end of no path is null, an empty text or an
empty object left; and cleaning once more changes nothing. -/
theorem clean_keeps_leaves (fields : Fields) :
    leaves fields.clean = (leaves fields).filter (fun leaf => ¬leaf.2.IsNothing)
      ∧ (∀ part ∈ fields.clean.parts,
          part.2 ≠ .null ∧ part.2 ≠ .string "" ∧ part.2 ≠ .object [])
      ∧ fields.clean.clean = fields.clean := by
  refine ⟨leaves_clean fields, fun part hpart => ?_, clean_eq_self (speaks_parts_clean fields)⟩
  obtain ⟨hnothing, hobject⟩ := speaks_parts_clean fields part hpart
  exact ⟨fun h => hnothing (Or.inl h), fun h => hnothing (Or.inr h), hobject⟩

/-- An object with an empty text, with an object of which nothing is left, and with an array that
holds what an object would not keep. -/
def hollowFields : Fields :=
  [("className", .string ""), ("style", .object [("color", .object [("text", .null)])]),
    ("query", .object [("order", .bool false), ("include", .array [.null])])]

/-- Two leaves of it are left, and the array is one of them. -/
theorem clean_keeps_leaves_hollowFields :
    (["query", "include"], .array [.null]) ∈ hollowFields.clean.parts
      ∧ hollowFields.clean.leaves
        = [(["query", "order"], .bool false), (["query", "include"], .array [.null])]
      ∧ (Json.array [.null] ≠ .null ∧ Json.array [.null] ≠ .string ""
        ∧ Json.array [.null] ≠ .object [])
      ∧ hollowFields.clean.clean = hollowFields.clean := by
  obtain ⟨hleaves, hparts, hagain⟩ := clean_keeps_leaves hollowFields
  have hclean : hollowFields.clean.parts
      = [(["query"], .object [("order", .bool false), ("include", .array [.null])]),
        (["query", "order"], .bool false), (["query", "include"], .array [.null])] := rfl
  have hpart : (["query", "include"], .array [.null]) ∈ hollowFields.clean.parts := by
    simp [hclean]
  exact ⟨hpart, hleaves, hparts _ hpart, hagain⟩

end Fields

end BlockTheme
