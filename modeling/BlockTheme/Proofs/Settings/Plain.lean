import BlockTheme.Proofs.Settings.Changes

/-!
# Settings that JSON can hold

Data is JSON if the keys of all its records are texts (`Data.IsJson`). What is read from a file is
(`isJson_read`), and a change of such settings gives such settings if what it stores is such a value
(`Puts.isJson_iff`). The only cast that makes something else of JSON is the one to a record, which any
pairs make (`Cast.isJson_toKind_iff`).
-/

namespace BlockTheme.Settings

open Text (Glyphs)

/-- Data that JSON can hold: the keys of its records are texts. -/
inductive Data.IsJson : Data → Prop where
  | atom (a : Atom) : IsJson (.atom a)
  | list {items : List Data} (h : ∀ v ∈ items, IsJson v) : IsJson (.list items)
  | record {members : Members Data} (hkeys : ∀ member ∈ members, ∃ s, member.1 = .text s)
      (h : ∀ member ∈ members, IsJson member.2) : IsJson (.record members)

variable {members changed : Members Data} {key : Glyphs} {keys : List Glyphs} {v w : Data} {room : Nat}

/-! ## Members -/

/-- A member after a value was put is one that was there before, or has the value. -/
theorem Members.mem_set {α : Type} {members : Members α} {key : Atom} {v : α} {member : Atom × α}
    (h : member ∈ members.set key v) :
    member ∈ members ∨ member.2 = v ∧ member.1.isSame key = true := by
  induction members with
  | nil =>
    obtain rfl := List.mem_singleton.1 h
    exact .inr ⟨rfl, Atom.isSame_self key⟩
  | cons first rest ih =>
    obtain ⟨k, w⟩ := first
    rw [Members.set] at h
    split at h
    -- an equal key keeps its place and gets the value
    · next hkey =>
      rcases List.mem_cons.1 h with rfl | hrest
      · exact .inr ⟨rfl, hkey⟩
      · exact .inl (List.mem_cons_of_mem _ hrest)
    · rcases List.mem_cons.1 h with rfl | hrest
      · exact .inl List.mem_cons_self
      · exact (ih hrest).imp_left (List.mem_cons_of_mem _)

namespace Data

theorem isJson_empty : (Data.record []).IsJson :=
  .record (fun _ h => absurd h List.not_mem_nil) fun _ h => absurd h List.not_mem_nil

/-- A record stays one that could be read, when such a value is put under a text. -/
theorem IsJson.set (h : (Data.record members).IsJson) (key : Glyphs) (hv : v.IsJson) :
    (Data.record (members.set (.text key) v)).IsJson := by
  cases h with
  | record hkeys hvalues =>
    refine .record (fun member hmember => ?_) fun member hmember => ?_
    · rcases Members.mem_set hmember with hbefore | ⟨-, hsame⟩
      · exact hkeys member hbefore
      · exact ⟨key, Atom.isSame_text_iff.1 hsame⟩
    · rcases Members.mem_set hmember with hbefore | ⟨hvalue, -⟩
      · exact hvalues member hbefore
      · rwa [hvalue]

theorem IsJson.get? {key : Atom} (h : (Data.record members).IsJson)
    (hget : members.get? key = some v) : v.IsJson := by
  cases h with
  | record _ hvalues =>
    obtain ⟨k, hmember, -⟩ := Members.exists_mem_of_get? hget
    exact hvalues (k, v) hmember

/-- What is found in JSON is JSON, and what is missing counts as null, which is JSON too. -/
theorem IsJson.valueAt (h : v.IsJson) (keys : List Glyphs) : (Settings.valueAt keys v).IsJson := by
  induction keys generalizing v with
  | nil => exact h
  | cons key rest ih =>
    cases v with
    | atom | list => exact .atom .null
    | record members =>
      rw [valueAt_cons]
      refine ih ?_
      cases hget : Members.get? members (.text key) with
      | none => exact .atom .null
      | some w => exact h.get? hget

end Data

/-! ## Reading -/

theorem exists_of_map_eq_ok {ε α β : Type} {f : α → β} {tried : Except ε α} {b : β}
    (h : tried.map f = .ok b) : ∃ a, tried = .ok a ∧ f a = b := by
  cases tried with
  | error why => cases h
  | ok a => exact ⟨a, rfl, Except.ok.inj h⟩

mutual

/-- **What is read is JSON**, as all keys are read as texts. By induction on the fuel, along with
items and members. -/
theorem isJson_readValue :
    ∀ (fuel room : Nat) (s : List Char) (v : Data) (rest : List Char),
      readValue fuel room s = .ok (v, rest) → v.IsJson
  | 0, _, _, _, _, h => by simp [readValue] at h
  | fuel + 1, room, [], _, _, h => by simp [readValue] at h
  | fuel + 1, room, c :: s, v, rest, h => by
    unfold readValue at h
    dsimp only at h
    split at h
    · split at h
      · cases h
      · split at h
        · cases h
          exact .list (List.forall_mem_nil _)
        · obtain ⟨found, hfound, heq⟩ := exists_of_map_eq_ok h
          cases heq
          -- a list is JSON since its items were read by the same reader
          exact .list (isJson_readItems fuel _ _ _ _ hfound)
    · split at h
      · split at h
        · cases h
        · split at h
          · cases h
          · split at h
            · cases h
              exact Data.isJson_empty
            · obtain ⟨found, hfound, heq⟩ := exists_of_map_eq_ok h
              cases heq
              -- the record grows from the empty one, whose keys are all texts
              exact isJson_readMembers fuel _ [] _ _ _ Data.isJson_empty hfound
      · split at h
        · split at h
          · cases h
            -- a text, and below a number or a word, holds nothing
            exact .atom _
          · cases h
        · unfold readAtom at h
          split at h
          · cases h
          · split at h
            · cases h
              exact .atom _
            · cases h

theorem isJson_readItems :
    ∀ (fuel room : Nat) (s : List Char) (items : List Data) (rest : List Char),
      readItems fuel room s = .ok (items, rest) → ∀ v ∈ items, v.IsJson
  | 0, _, _, _, _, h => by simp [readItems] at h
  | fuel + 1, room, s, items, rest, h => by
    rw [readItems] at h
    split at h
    · cases h
    · next v after hvalue =>
      have hv := isJson_readValue fuel room s v after hvalue
      split at h
      · obtain ⟨found, hfound, heq⟩ := exists_of_map_eq_ok h
        cases heq
        exact List.forall_mem_cons.2 ⟨hv, isJson_readItems fuel room _ _ _ hfound⟩
      · cases h
        exact List.forall_mem_cons.2 ⟨hv, List.forall_mem_nil _⟩
      · cases h

/-- Members too: their keys are texts, and a key that comes again replaces its value. By induction
on the fuel, with the members that were read so far. -/
theorem isJson_readMembers :
    ∀ (fuel room : Nat) (before : Members Data) (s : List Char) (members : Members Data)
      (rest : List Char), (Data.record before).IsJson →
        readMembers fuel room before s = .ok (members, rest) → (Data.record members).IsJson
  | 0, _, _, _, _, _, _, h => by simp [readMembers] at h
  | fuel + 1, room, before, [], _, _, _, h => by simp [readMembers] at h
  | fuel + 1, room, before, c :: s, members, rest, hbefore, h => by
    rw [readMembers] at h
    split at h
    · cases h
    · split at h
      · cases h
      · split at h
        · split at h
          · cases h
          · next v after hvalue =>
            -- a member is put among those before it, under its key
            have hset := fun key => hbefore.set key (isJson_readValue fuel room _ v after hvalue)
            dsimp only at h
            split at h
            · exact isJson_readMembers fuel room _ _ _ _ (hset _) h
            · split at h
              · cases h
                exact hset _
              · cases h
            · cases h
        · cases h

end

theorem isJson_read {text : String} (h : read room text = .ok v) : v.IsJson := by
  unfold read at h
  dsimp only at h
  split at h
  · cases h
  · next found rest hread =>
    split at h
    · cases h
      exact isJson_readValue _ _ _ _ _ hread
    · cases h

/-! ## Changing -/

/-- **A change of JSON gives JSON exactly if what it stores is JSON.** On the way to it only records
are made, with texts as their keys. -/
theorem Puts.isJson_iff (h : Puts room v keys members changed)
    (hmembers : (Data.record members).IsJson) :
    (Data.record changed).IsJson ↔ (valueAt keys (.record changed)).IsJson := by
  -- the other members are as before, so it depends on what is stored
  refine ⟨fun hchanged => hchanged.valueAt keys, fun hstored => ?_⟩
  induction h with
  | last hcast =>
    rw [valueAt_set_self, valueAt_nil] at hstored
    exact hmembers.set _ hstored
  | @further key next rest members inner changed henters hputs ih =>
    rw [valueAt_set_self] at hstored
    refine hmembers.set _ (ih ?_ hstored)
    unfold Enters at henters
    cases hget : members.get? (.text key) with
    | none =>
      rw [hget] at henters
      cases henters
      exact Data.isJson_empty
    | some w =>
      rw [hget] at henters
      obtain rfl : w = .record inner := henters
      exact hmembers.get? hget

/-! ## Casting -/

namespace Cast

/-- What JSON runs through is JSON: the characters of a text, the items of a list, the keys of a
record. -/
theorem isJson_itemsOf? {items : List Data} (hv : v.IsJson)
    (h : itemsOf? Data.reading v = some items) : ∀ item ∈ items, item.IsJson := by
  intro item hitem
  cases hv with
  | atom a =>
    cases a with
    -- a text runs through its characters
    | text s =>
      cases h
      obtain ⟨glyph, -, rfl⟩ := List.mem_map.1 hitem
      exact .atom _
    | _ => cases h
  | list hitems =>
    cases h
    exact hitems item hitem
  -- and a record through its keys, which are texts
  | record hkeys hvalues =>
    cases h
    obtain ⟨member, -, rfl⟩ := List.mem_map.1 hitem
    exact .atom _

theorem isJson_pairOf? {pair : Atom × Data} (hv : v.IsJson)
    (h : pairOf? Data.reading v = some pair) : pair.2.IsJson := by
  unfold pairOf? at h
  split at h
  · next key value hitems =>
    split at h
    · cases h
      exact isJson_itemsOf? hv hitems value (by simp)
    · cases h
  · cases h

/-- The values of a record of pairs are values of the pairs. Some of them may be lost, where a key
comes more than once. -/
theorem exists_mem_of_mem_recordOf {pairs : Members Data} {member : Atom × Data}
    (h : member ∈ recordOf pairs) : ∃ pair ∈ pairs, pair.2 = member.2 := by
  -- the pairs are put one after the other, to members that are there already
  have hfold : ∀ (pairs before : Members Data),
      member ∈ pairs.foldl (fun members (key, v) => Members.set members key v) before →
        member ∈ before ∨ ∃ pair ∈ pairs, pair.2 = member.2 := by
    intro pairs
    induction pairs with
    | nil => exact fun before hmember => .inl hmember
    | cons pair rest ih =>
      intro before hmember
      rcases ih _ hmember with hput | ⟨later, hlater, hvalue⟩
      · exact (Members.mem_set hput).imp_right fun hnew =>
          ⟨pair, List.mem_cons_self, hnew.1.symm⟩
      · exact .inr ⟨later, List.mem_cons_of_mem _ hlater, hvalue⟩
  exact (hfold pairs [] h).resolve_left List.not_mem_nil

/-- What is found for items is found for one of them. -/
theorem exists_of_mem_mapM {α β : Type} {f : α → Option β} {items : List α} {found : List β} {b : β}
    (h : items.mapM f = some found) (hb : b ∈ found) : ∃ a ∈ items, f a = some b := by
  induction items generalizing found with
  | nil =>
    cases h
    cases hb
  | cons a rest ih =>
    rw [List.mapM_cons] at h
    obtain ⟨first, hfirst, h⟩ := Option.bind_eq_some_iff.1 h
    obtain ⟨others, hothers, h⟩ := Option.bind_eq_some_iff.1 h
    cases h
    rcases List.mem_cons.1 hb with rfl | hrest
    · exact ⟨a, List.mem_cons_self, hfirst⟩
    · obtain ⟨c, hc, hcb⟩ := ih hothers hrest
      exact ⟨c, List.mem_cons_of_mem _ hc, hcb⟩

/-- The values of a record that JSON makes are JSON. The keys need not be: a list of pairs may have
numbers as keys. -/
theorem isJson_membersOf? {members : Members Data} (hv : v.IsJson)
    (h : membersOf? Data.reading v = some members) : ∀ member ∈ members, member.2.IsJson := by
  intro member hmember
  unfold membersOf? at h
  split at h
  -- a record keeps its own keys, which are texts
  · next found hview =>
    cases hv with
    | atom | list => cases hview
    | record hkeys hvalues =>
      cases h
      cases hview
      exact hvalues member hmember
  · -- the record is made of pairs of what the value runs through
    obtain ⟨pairs, hpairs, rfl⟩ := Option.map_eq_some_iff.1 h
    obtain ⟨items, hitems, hpairs⟩ := Option.bind_eq_some_iff.1 hpairs
    obtain ⟨pair, hpair, hvalue⟩ := exists_mem_of_mem_recordOf hmember
    obtain ⟨item, hitem, hof⟩ := exists_of_mem_mapM hpairs hpair
    rw [← hvalue]
    exact isJson_pairOf? (isJson_itemsOf? hv hitems item hitem) hof

/-- A value makes a record of which a key is no text. -/
def MakesOddKey (v : Data) : Prop :=
  ∃ members, membersOf? Data.reading v = some members ∧ ∃ member ∈ members, ∀ s, member.1 ≠ .text s

/-- **JSON is cast to JSON**, except for pairs that are cast to a record although a first one of
them is no text. Its key is then a number, a flag or null. -/
theorem isJson_toKind_iff {kind : Kind} {w : View Data} (hv : v.IsJson)
    (h : toKind Data.reading room kind v = .ok (some w)) :
    (Data.ofView w).IsJson ↔ ¬(kind = .record ∧ MakesOddKey v) := by
  have hkind := kind_of_toKind h
  cases w with
  | atom a =>
    refine iff_of_true (.atom a) fun hodd => ?_
    rw [hodd.1] at hkind
    cases a with
    | number n => cases n <;> cases hkind
    | _ => cases hkind
  | list items =>
    obtain rfl : Kind.list = kind := hkind
    obtain ⟨found, hfound, heq⟩ := Option.map_eq_some_iff.1 (Except.ok.inj h)
    cases heq
    refine iff_of_true (.list (isJson_itemsOf? hv hfound)) ?_
    rintro ⟨⟨⟩, -⟩
  | record members =>
    obtain rfl : Kind.record = kind := hkind
    obtain ⟨found, hfound, heq⟩ := Option.map_eq_some_iff.1 (Except.ok.inj h)
    cases heq
    have hvalues := isJson_membersOf? hv hfound
    constructor
    -- a record of pairs has the first halves as its keys
    · rintro hjson ⟨-, others, hothers, member, hmember, hodd⟩
      cases hfound.symm.trans hothers
      cases hjson with
      | record hkeys _ =>
        obtain ⟨s, hs⟩ := hkeys member hmember
        exact hodd s hs
    · intro hnone
      refine .record (fun member hmember => ?_) hvalues
      by_contra hodd
      exact hnone ⟨rfl, members, hfound, member, hmember, fun s hs => hodd ⟨s, hs⟩⟩

end Cast

end BlockTheme.Settings
