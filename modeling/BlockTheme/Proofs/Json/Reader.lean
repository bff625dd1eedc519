import BlockTheme.Proofs.Json.Numbers
import BlockTheme.Proofs.Json.Parts

/-!
# What the reader lets through

The reader counts the digits of integers itself: no integer in a value that it gives is too long
(`Json.short_read?`). Whatever it keeps of several members with one key, this holds of all of them.
-/

namespace BlockTheme.Json

/-- The integer that digits spell is not too long if they are not. -/
theorem fits_signed {s : List Char} (h : IsDigits s) (hlength : s.length ≤ Text.maxDigits)
    (negative : Bool) : (Number.int (Binary64.signed negative (Text.digitsValue s))).Fits := by
  have habs : (Binary64.signed negative (Text.digitsValue s)).natAbs = Text.digitsValue s := by
    cases negative <;> simp [Binary64.signed]
  show (Nat.toDigits 10 (Binary64.signed negative (Text.digitsValue s)).natAbs).length
    ≤ Text.maxDigits
  rw [habs]
  exact (Text.length_toDigits_digitsValue_le h.1 h.2).trans hlength

/-- What is read as a number fits: its digits are counted before a whole number is made of them, and
a floating-point number has no length. -/
theorem fits_numberOf? {negative : Bool} {whole : List Char} {fraction : Option (List Char)}
    {power : Option Int} {n : Number} (hwhole : IsDigits whole)
    (h : numberOf? negative whole fraction power = some n) : n.Fits := by
  unfold numberOf? at h
  split at h
  · split at h
    · simp at h
    · next hlength =>
      obtain rfl := Option.some.inj h
      exact fits_signed hwhole (Nat.not_lt.1 hlength) negative
  · obtain rfl := Option.some.inj h
    trivial

/-- What the reader makes of the characters behind a sign fits. All numbers of a text are read by
it. -/
theorem fits_readUnsigned {negative : Bool} {s rest : List Char} {n : Number}
    (h : readUnsigned negative s = some (n, rest)) : n.Fits := by
  rw [readUnsigned_eq] at h
  split at h
  · simp at h
  · next hwhole =>
    split at h
    · simp at h
    · obtain ⟨found, -, hmap⟩ := Option.bind_eq_some_iff.1 h
      obtain ⟨m, hm, heq⟩ := Option.map_eq_some_iff.1 hmap
      obtain ⟨rfl, -⟩ := Prod.mk.inj heq
      refine fits_numberOf? ⟨fun hnil => ?_, fun c hc => ?_⟩ hm
      · rw [hnil] at hwhole
        exact hwhole rfl
      · rw [List.span_eq_takeWhile_dropWhile] at hc
        exact List.mem_takeWhile_imp hc

/-- A value in which no integer is too long. -/
def Short (v : Json) : Prop := ∀ n ∈ v.numbers, n.Fits

theorem short_string (s : String) : (Json.string s).Short := List.forall_mem_nil _

theorem short_number {n : Number} : (Json.number n).Short ↔ n.Fits := by
  simp [Short]

theorem short_array {items : List Json} : (Json.array items).Short ↔ ∀ v ∈ items, v.Short := by
  induction items with
  | nil => exact ⟨fun _ => List.forall_mem_nil _, fun _ => List.forall_mem_nil _⟩
  | cons v rest ih =>
    rw [List.forall_mem_cons, ← ih]
    exact List.forall_mem_append

theorem short_object {members : Fields} :
    (Json.object members).Short ↔ ∀ member ∈ members, member.2.Short := by
  constructor
  · intro h member hmember n hn
    exact h n (Fields.mem_numbers.2 ⟨member, hmember, hn⟩)
  · intro h n hn
    obtain ⟨member, hmember, hin⟩ := Fields.mem_numbers.1 hn
    exact h member hmember n hin

/-- What holds of the members that were read before and of one more holds of all that are kept. -/
theorem forall_mem_add {P : String × Json → Prop} {repeats : Repeats} {before : Fields}
    (hbefore : ∀ member ∈ before, P member) {key : String} {v : Json} (hv : P (key, v)) :
    ∀ member ∈ repeats.add before key v, P member := by
  intro member hmember
  cases repeats with
  | last => exact (Fields.mem_of_set hmember).elim (hbefore member) fun heq => heq ▸ hv
  | all =>
    rcases List.mem_append.1 hmember with hold | hnew
    · exact hbefore member hold
    · exact List.mem_singleton.1 hnew ▸ hv

/-- A value that is read without going deeper is short. A literal holds no number of any length, and
a number fits. -/
theorem short_readScalar {s rest : List Char} {v : Json} (h : readScalar s = some (v, rest)) :
    v.Short := by
  have hnumber : ∀ {negative : Bool} {s : List Char},
      (readUnsigned negative s).map (fun found => (Json.number found.1, found.2)) = some (v, rest) →
        v.Short := by
    intro negative s hmap
    obtain ⟨found, hfound, heq⟩ := Option.map_eq_some_iff.1 hmap
    obtain ⟨rfl, -⟩ := Prod.mk.inj heq
    exact short_number.2 (fits_readUnsigned hfound)
  unfold readScalar at h
  split at h
  · next found hfound =>
    obtain rfl := Option.some.inj h
    obtain ⟨entry, hentry, hword⟩ := List.exists_of_findSome?_eq_some hfound
    obtain ⟨_, -, heq⟩ := Option.map_eq_some_iff.1 hword
    obtain ⟨rfl, -⟩ := Prod.mk.inj heq
    -- the three words and the special floats hold no integer
    have hliterals : ∀ entry ∈ literals, entry.2.Short := by
      simp [literals, Short, numbers, Number.Fits]
    exact hliterals entry hentry
  · split at h
    · exact hnumber h
    · exact hnumber h

variable {repeats : Repeats}

mutual

/-- **The reader lets no integer through that is too long.** By induction on the fuel, along with
items and members, and whatever is done about keys that come twice. -/
theorem short_readValue :
    ∀ (fuel room : Nat) (s : List Char) (v : Json) (rest : List Char),
      readValue repeats fuel room s = some (v, rest) → v.Short
  | 0, _, _, _, _, h => by simp [readValue] at h
  | fuel + 1, room, [], _, _, h => by simp [readValue] at h
  | fuel + 1, room, c :: s, v, rest, h => by
    unfold readValue at h
    dsimp only at h
    split at h
    -- an array, empty or with items
    · split at h
      · simp at h
      · split at h
        · obtain ⟨rfl, -⟩ := Prod.mk.inj (Option.some.inj h)
          exact short_array.2 (List.forall_mem_nil _)
        · obtain ⟨found, hfound, heq⟩ := Option.map_eq_some_iff.1 h
          obtain ⟨rfl, -⟩ := Prod.mk.inj heq
          exact short_array.2 (short_readItems fuel _ _ _ _ hfound)
    -- an object
    · split at h
      · split at h
        · simp at h
        · split at h
          · simp at h
          · split at h
            · obtain ⟨rfl, -⟩ := Prod.mk.inj (Option.some.inj h)
              exact short_object.2 (List.forall_mem_nil _)
            · obtain ⟨found, hfound, heq⟩ := Option.map_eq_some_iff.1 h
              obtain ⟨rfl, -⟩ := Prod.mk.inj heq
              exact short_object.2
                (short_readMembers fuel _ [] _ _ _ (List.forall_mem_nil _) hfound)
      · split at h
        · obtain ⟨found, -, heq⟩ := Option.map_eq_some_iff.1 h
          obtain ⟨rfl, -⟩ := Prod.mk.inj heq
          exact short_string _
        -- a word or a number
        · exact short_readScalar h

/-- Items that are read are short. By induction on the fuel, along with values and members, as the
three readers call each other. -/
theorem short_readItems :
    ∀ (fuel room : Nat) (s : List Char) (items : List Json) (rest : List Char),
      readItems repeats fuel room s = some (items, rest) → ∀ v ∈ items, v.Short
  | 0, _, _, _, _, h => by simp [readItems] at h
  | fuel + 1, room, s, items, rest, h => by
    rw [readItems] at h
    split at h
    · simp at h
    · next v after hvalue =>
      have hv := short_readValue fuel room s v after hvalue
      split at h
      · obtain ⟨found, hfound, heq⟩ := Option.map_eq_some_iff.1 h
        obtain ⟨rfl, -⟩ := Prod.mk.inj heq
        exact List.forall_mem_cons.2 ⟨hv, short_readItems fuel room _ _ _ hfound⟩
      · obtain ⟨rfl, -⟩ := Prod.mk.inj (Option.some.inj h)
        exact List.forall_mem_cons.2 ⟨hv, List.forall_mem_nil _⟩
      · simp at h

/-- Members that are read are short if those before them are: a key that is there again takes the
place of the old member, or stands beside it. -/
theorem short_readMembers :
    ∀ (fuel room : Nat) (before : Fields) (s : List Char) (members : Fields) (rest : List Char),
      (∀ member ∈ before, member.2.Short) →
        readMembers repeats fuel room before s = some (members, rest) →
          ∀ member ∈ members, member.2.Short
  | 0, _, _, _, _, _, _, h => by simp [readMembers] at h
  | fuel + 1, room, before, [], _, _, _, h => by simp [readMembers] at h
  | fuel + 1, room, before, c :: s, members, rest, hbefore, h => by
    rw [readMembers] at h
    split at h
    · simp at h
    · split at h
      · simp at h
      · split at h
        · split at h
          · simp at h
          · next v after hvalue =>
            have hv := short_readValue fuel room _ v after hvalue
            have hadd : ∀ key, ∀ member ∈ repeats.add before key v, member.2.Short :=
              fun _ => forall_mem_add hbefore hv
            dsimp only at h
            split at h
            -- the next member is read with this one in front of it
            · exact short_readMembers fuel room _ _ _ _ (hadd _) h
            · split at h
              · obtain ⟨rfl, -⟩ := Prod.mk.inj (Option.some.inj h)
                exact hadd _
              · simp at h
            · simp at h
        · simp at h

end

theorem short_read? {limit : Option Nat} {text : String} {v : Json}
    (h : read? repeats limit text = some v) : v.Short := by
  unfold read? at h
  dsimp only at h
  split at h
  · next w rest hread =>
    split at h
    · obtain rfl := Option.some.inj h
      exact short_readValue _ _ _ _ _ hread
    · simp at h
  · simp at h

end BlockTheme.Json
