import BlockTheme.Proofs.Json.Texts

/-!
# Numbers and keys in JSON values

The numbers in a value, and the values in whose objects every key stands once (`Json.Keyed`). Cleaning
keeps both (`Fields.numbers_clean`, `Fields.Keyed.clean`), and setting a member adds the numbers of its
value at most (`Fields.mem_numbers_of_set`, `Fields.Keyed.set`). So what holds of the numbers that are
set holds of all numbers of the outcome (`Fields.Regular.set`).
-/

namespace BlockTheme

namespace Json

mutual

/-- The numbers in a value. -/
def numbers : Json → List Number
  | .number n => [n]
  | .array items => numbersOfItems items
  | .object members => numbersOfMembers members
  | _ => []

def numbersOfItems : List Json → List Number
  | [] => []
  | v :: rest => numbers v ++ numbersOfItems rest

def numbersOfMembers : List (String × Json) → List Number
  | [] => []
  | (_, v) :: rest => numbers v ++ numbersOfMembers rest

end

mutual

/-- A value in whose objects every key stands once. -/
def Keyed : Json → Prop
  | .array items => KeyedItems items
  | .object members => KeyedMembers members
  | _ => True

def KeyedItems : List Json → Prop
  | [] => True
  | v :: rest => Keyed v ∧ KeyedItems rest

/-- Members with different keys, and with values in which this is so. -/
def KeyedMembers : List (String × Json) → Prop
  | [] => True
  | (key, v) :: rest => key ∉ Fields.keys rest ∧ Keyed v ∧ KeyedMembers rest

end

@[simp] theorem numbers_number (n : Number) : numbers (.number n) = [n] := rfl

@[simp] theorem numbers_string (s : String) : numbers (.string s) = [] := rfl

@[simp] theorem keyed_number (n : Number) : Keyed (.number n) := trivial

@[simp] theorem keyed_string (s : String) : Keyed (.string s) := trivial

@[simp] theorem numbers_bool (b : Bool) : numbers (.bool b) = [] := rfl

@[simp] theorem keyed_bool (b : Bool) : Keyed (.bool b) := trivial

end Json

namespace Fields

/-- The numbers in the values of fields. -/
def numbers (fields : Fields) : List Number := Json.numbersOfMembers fields

/-- Fields with different keys, and with values in whose objects every key stands once. -/
def Keyed (fields : Fields) : Prop := Json.KeyedMembers fields

@[simp] theorem numbers_object (members : Fields) :
    (Json.object members).numbers = members.numbers := rfl

@[simp] theorem keyed_object (members : Fields) :
    (Json.object members).Keyed ↔ members.Keyed := Iff.rfl

@[simp] theorem numbers_nil : numbers [] = [] := rfl

@[simp] theorem numbers_cons (key : String) (v : Json) (rest : Fields) :
    numbers ((key, v) :: rest) = v.numbers ++ numbers rest := rfl

@[simp] theorem keyed_nil : Keyed [] := trivial

@[simp] theorem keyed_cons (key : String) (v : Json) (rest : Fields) :
    Keyed ((key, v) :: rest) ↔ key ∉ keys rest ∧ v.Keyed ∧ Keyed rest := Iff.rfl

@[simp] theorem keys_nil : keys [] = [] := rfl

@[simp] theorem keys_cons (key : String) (v : Json) (rest : Fields) :
    keys ((key, v) :: rest) = key :: keys rest := rfl

theorem mem_of_last? {fields : Fields} {key : String} {v : Json} (h : fields.last? key = some v) :
    (key, v) ∈ fields := by
  induction fields with
  | nil => cases h
  | cons field rest ih =>
    obtain ⟨other, w⟩ := field
    rcases Option.or_eq_some_iff.1 h with hlater | ⟨-, hhere⟩
    · exact List.mem_cons_of_mem _ (ih hlater)
    · split at hhere
      · next heq =>
        obtain rfl := Option.some.inj hhere
        exact heq ▸ List.mem_cons_self
      · cases hhere

/-- A key that no member has is not found, and only such a key. -/
theorem last?_eq_none_iff {fields : Fields} {key : String} :
    fields.last? key = none ↔ key ∉ fields.keys := by
  induction fields with
  | nil => simp [last?]
  | cons field rest ih =>
    obtain ⟨other, v⟩ := field
    rw [last?, Option.or_eq_none_iff, ih, keys_cons, List.mem_cons, not_or, and_comm]
    refine and_congr_left' ?_
    split
    · next heq => simp [heq]
    · next hne => simpa using Ne.symm hne

/-- The numbers of fields and more fields are those of both. -/
theorem numbers_append (a b : Fields) : numbers (a ++ b) = numbers a ++ numbers b := by
  induction a with
  | nil => rfl
  | cons member rest ih =>
    obtain ⟨key, v⟩ := member
    rw [List.cons_append, numbers_cons, numbers_cons, ih, List.append_assoc]

/-- The numbers of fields are those of their values. -/
theorem mem_numbers {fields : Fields} {n : Number} :
    n ∈ fields.numbers ↔ ∃ member ∈ fields, n ∈ member.2.numbers := by
  induction fields with
  | nil => simp
  | cons member rest ih =>
    obtain ⟨key, v⟩ := member
    simp [ih]

/-- In every value of such fields, too, each key stands once. -/
theorem Keyed.of_mem {fields : Fields} (h : fields.Keyed) {member : String × Json}
    (hmem : member ∈ fields) : member.2.Keyed := by
  induction fields with
  | nil => simp at hmem
  | cons first rest ih =>
    obtain ⟨key, v⟩ := first
    obtain ⟨-, hv, hrest⟩ := (keyed_cons key v rest).1 h
    rcases List.mem_cons.1 hmem with rfl | hmem
    · exact hv
    · exact ih hrest hmem

theorem Keyed.nodup_keys {fields : Fields} (h : fields.Keyed) : fields.keys.Nodup := by
  induction fields with
  | nil => exact List.nodup_nil
  | cons member rest ih =>
    obtain ⟨key, v⟩ := member
    obtain ⟨hkey, -, hrest⟩ := (keyed_cons key v rest).1 h
    exact List.nodup_cons.2 ⟨hkey, ih hrest⟩

/-! ### Cleaning -/

/-- A value that says nothing has no number: zero says something. -/
theorem numbers_of_isVoid {v : Json} (h : v.isVoid = true) : v.numbers = [] := by
  cases v with
  | object members => simp [List.isEmpty_iff.1 h]
  | _ => simp [Json.isVoid, Json.numbers] at h ⊢

mutual

/-- Cleaning drops no number. -/
theorem numbers_cleanValue : ∀ v : Json, v.clean.numbers = v.numbers
  | .object members => by
    rw [Json.clean, numbers_object, numbers_object]
    exact numbers_cleanMembers members
  | .null | .bool _ | .number _ | .string _ | .array _ => by simp [Json.clean]

/-- Cleaning members adds no number, and loses none: a member that is dropped says nothing. -/
theorem numbers_cleanMembers :
    ∀ members : List (String × Json), numbers (Json.cleanMembers members) = numbers members
  | [] => by simp [Json.cleanMembers]
  | (key, v) :: rest => by
    have hvalue := numbers_cleanValue v
    have hrest := numbers_cleanMembers rest
    rw [Json.cleanMembers, numbers_cons, ← hvalue, ← hrest]
    split
    · next hvoid => rw [numbers_of_isVoid hvoid, List.nil_append]
    · rfl

end

/-- **Cleaning keeps the numbers of fields**, and their order as well. A number always says
something. -/
theorem numbers_clean (fields : Fields) : fields.clean.numbers = fields.numbers :=
  numbers_cleanMembers fields

/-- The keys that are left are some of those that were there, in order. -/
theorem keys_cleanMembers_sublist (members : List (String × Json)) :
    (keys (Json.cleanMembers members)).Sublist (keys members) := by
  induction members with
  | nil => simp [Json.cleanMembers]
  | cons member rest ih =>
    obtain ⟨key, v⟩ := member
    rw [Json.cleanMembers, keys_cons]
    split
    · exact ih.cons key
    · exact ih.cons_cons key

mutual

/-- Cleaning puts no key twice. -/
theorem keyed_cleanValue : ∀ v : Json, v.Keyed → v.clean.Keyed
  | .object members, h => by
    rw [Json.clean]
    exact keyed_cleanMembers members h
  | .null, _ | .bool _, _ | .number _, _ | .string _, _ => trivial
  | .array _, h => h

theorem keyed_cleanMembers :
    ∀ members : List (String × Json), Json.KeyedMembers members →
      Json.KeyedMembers (Json.cleanMembers members)
  | [], _ => trivial
  | (key, v) :: rest, ⟨hkey, hv, hrest⟩ => by
    have hvalue := keyed_cleanValue v hv
    have hmembers := keyed_cleanMembers rest hrest
    rw [Json.cleanMembers]
    split
    · exact hmembers
    · exact ⟨fun hmem => hkey ((keys_cleanMembers_sublist rest).subset hmem), hvalue, hmembers⟩

end

theorem Keyed.clean {fields : Fields} (h : fields.Keyed) : fields.clean.Keyed :=
  keyed_cleanMembers fields h

/-! ### Setting a member -/

/-- The keys after a field is set are the old ones, and its key. -/
theorem mem_keys_set (fields : Fields) (key : String) (v : Json) (name : String) :
    name ∈ (fields.set key v).keys ↔ name ∈ fields.keys ∨ name = key := by
  induction fields with
  | nil => simp [set]
  | cons member rest ih =>
    obtain ⟨other, w⟩ := member
    rw [set]
    split
    · next hother =>
      rw [keys_cons, keys_cons, hother]
      grind
    · rw [keys_cons, keys_cons, List.mem_cons, ih, List.mem_cons, or_assoc]

/-- Setting a member puts no key twice: a key that is there keeps its place and gets the value. -/
theorem Keyed.set {fields : Fields} (h : fields.Keyed) (key : String) {v : Json} (hv : v.Keyed) :
    (fields.set key v).Keyed := by
  induction fields with
  | nil => simpa [Fields.set] using hv
  | cons member rest ih =>
    obtain ⟨name, w⟩ := member
    obtain ⟨hname, hw, hrest⟩ := (keyed_cons name w rest).1 h
    rw [Fields.set]
    split
    · exact ⟨hname, hv, hrest⟩
    · next hne =>
      refine ⟨fun hmem => ?_, hw, ih hrest⟩
      -- the key that is in front would have to be set further on
      rcases (mem_keys_set rest key v name).1 hmem with hmem | heq
      · exact hname hmem
      · exact hne heq

/-- A member with a new key goes to the end, after those that are there. -/
theorem set_eq_append {fields : Fields} {key : String} (h : fields.get? key = none) (v : Json) :
    fields.set key v = fields ++ [(key, v)] := by
  induction fields with
  | nil => rfl
  | cons member rest ih =>
    obtain ⟨name, w⟩ := member
    rw [get?_cons] at h
    split at h
    · simp at h
    · next hne =>
      rw [set, if_neg fun heq => hne heq.symm, ih h]
      rfl

/-- Setting a member adds the numbers of its value at most. -/
theorem mem_numbers_of_set {fields : Fields} {key : String} {v : Json} {n : Number}
    (h : n ∈ (fields.set key v).numbers) : n ∈ fields.numbers ∨ n ∈ v.numbers := by
  obtain ⟨member, hmember, hn⟩ := mem_numbers.1 h
  rcases mem_of_set hmember with hold | rfl
  · exact Or.inl (mem_numbers.2 ⟨member, hold, hn⟩)
  · exact Or.inr hn

end Fields

/-! ### Numbers of a kind -/

section Regular

variable {P : Number → Prop}

/-- A value in whose objects every key stands once, with numbers of a kind. -/
def Json.Regular (P : Number → Prop) (v : Json) : Prop := v.Keyed ∧ ∀ n ∈ v.numbers, P n

/-- Fields with different keys, and with such values. -/
def Fields.Regular (P : Number → Prop) (fields : Fields) : Prop :=
  fields.Keyed ∧ ∀ n ∈ fields.numbers, P n

namespace Json

@[simp] theorem regular_null : Json.null.Regular P := ⟨trivial, List.forall_mem_nil _⟩

@[simp] theorem regular_string (s : String) : (Json.string s).Regular P :=
  ⟨trivial, List.forall_mem_nil _⟩

@[simp] theorem regular_bool (b : Bool) : (Json.bool b).Regular P :=
  ⟨trivial, List.forall_mem_nil _⟩

@[simp] theorem regular_number {n : Number} : (Json.number n).Regular P ↔ P n := by simp [Regular]

/-- An object is regular if its members are. The lemmas around it say the same for the other
constructors, so that regular values can be told from their parts. -/
@[simp] theorem regular_object {members : Fields} :
    (Json.object members).Regular P ↔ members.Regular P := Iff.rfl

@[simp] theorem regular_array {items : List Json} :
    (Json.array items).Regular P ↔ ∀ v ∈ items, v.Regular P := by
  induction items with
  | nil => exact ⟨fun _ => List.forall_mem_nil _, fun _ => ⟨trivial, List.forall_mem_nil _⟩⟩
  | cons v rest ih =>
    rw [List.forall_mem_cons, ← ih]
    show ((v.Keyed ∧ KeyedItems rest) ∧ ∀ n ∈ v.numbers ++ numbersOfItems rest, P n) ↔ _
    rw [List.forall_mem_append]
    exact ⟨fun ⟨⟨hv, hrest⟩, hvalue, hnumbers⟩ => ⟨⟨hv, hvalue⟩, hrest, hnumbers⟩,
      fun ⟨⟨hv, hvalue⟩, hrest, hnumbers⟩ => ⟨⟨hv, hrest⟩, hvalue, hnumbers⟩⟩

end Json

namespace Fields

@[simp] theorem regular_nil : Regular P [] := ⟨trivial, List.forall_mem_nil _⟩

/-- Fields are regular if the first one has a key of its own and a regular value, and the others
are. -/
@[simp] theorem regular_cons {key : String} {v : Json} {rest : Fields} :
    Regular P ((key, v) :: rest) ↔ key ∉ keys rest ∧ v.Regular P ∧ Regular P rest := by
  rw [Regular, keyed_cons, numbers_cons, List.forall_mem_append]
  exact ⟨fun ⟨⟨hkey, hv, hrest⟩, hvalue, hnumbers⟩ => ⟨hkey, ⟨hv, hvalue⟩, hrest, hnumbers⟩,
    fun ⟨hkey, ⟨hv, hvalue⟩, hrest, hnumbers⟩ => ⟨⟨hkey, hv, hrest⟩, hvalue, hnumbers⟩⟩

/-- **Setting a regular value keeps fields regular.** All attributes of blocks come about in this
way, key by key. -/
theorem Regular.set {fields : Fields} (h : fields.Regular P) (key : String) {v : Json}
    (hv : v.Regular P) : (fields.set key v).Regular P :=
  ⟨h.1.set key hv.1, fun n hn => (mem_numbers_of_set hn).elim (h.2 n) (hv.2 n)⟩

theorem Regular.get? {fields : Fields} (h : fields.Regular P) {key : String} {v : Json}
    (hget : fields.get? key = some v) : v.Regular P :=
  ⟨h.1.of_mem (mem_of_get? hget), fun n hn => h.2 n (mem_numbers.2 ⟨_, mem_of_get? hget, hn⟩)⟩

end Fields

end Regular

end BlockTheme
