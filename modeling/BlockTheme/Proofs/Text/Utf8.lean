import BlockTheme.Text.Utf8

/-!
# Texts as bytes

The bytes of a character are the digits of its code point to the base of 64, after a first byte that
tells how many there are (`Text.Utf8.Spells`). Every character is written so, and only what is spelled
so is read; so bytes are a text exactly if they are those that some text is written as
(`Text.Utf8.decode_eq_ok_iff`).
-/

namespace BlockTheme.Text.Utf8

variable {a b c d : UInt8} {n position : Nat} {bytes front rest : List UInt8} {s : List Char}

/-! ## Characters -/

/-- The bytes that a code point is spelled with, as few as it has room in; surrogates have none. -/
inductive Spells : List UInt8 → Nat → Prop where
  | one {a : UInt8} {n : Nat} (h : n < 0x80) (ha : a.toNat = n) : Spells [a] n
  | two {a b : UInt8} {n : Nat} (hleast : 0x80 ≤ n) (h : n < 0x800) (ha : a.toNat = 0xc0 + n / 64)
      (hb : b.toNat = 0x80 + n % 64) : Spells [a, b] n
  | three {a b c : UInt8} {n : Nat} (hleast : 0x800 ≤ n) (h : n < 0x10000)
      (hsurrogate : ¬(0xd800 ≤ n ∧ n ≤ 0xdfff)) (ha : a.toNat = 0xe0 + n / 4096)
      (hb : b.toNat = 0x80 + n / 64 % 64) (hc : c.toNat = 0x80 + n % 64) : Spells [a, b, c] n
  | four {a b c d : UInt8} {n : Nat} (hleast : 0x10000 ≤ n) (h : n ≤ 0x10ffff)
      (ha : a.toNat = 0xf0 + n / 262144) (hb : b.toNat = 0x80 + n / 4096 % 64)
      (hc : c.toNat = 0x80 + n / 64 % 64) (hd : d.toNat = 0x80 + n % 64) : Spells [a, b, c, d] n

/-- What a character is written as spells its number, in one to four bytes by how large it is. That
no half of a pair is spelled comes from its being a character. -/
theorem spells_encodeChar (c : Char) : Spells (encodeChar c) c.toNat := by
  have hvalid : c.toNat < 0xd800 ∨ 0xdfff < c.toNat ∧ c.toNat < 0x110000 := c.valid
  have hbyte : ∀ k, k < 256 → (UInt8.ofNat k).toNat = k := fun k hk => by simp; omega
  unfold encodeChar
  dsimp only [Nat.pow_eq]
  split
  · exact .one ‹_› (hbyte _ (by omega))
  split
  · exact .two (by omega) ‹_› (hbyte _ (by omega)) ((hbyte _ (by omega)).trans (by omega))
  split
  · exact .three (by omega) ‹_› (by omega) (hbyte _ (by omega)) ((hbyte _ (by omega)).trans (by omega))
      ((hbyte _ (by omega)).trans (by omega))
  · exact .four (by omega) (by omega) (hbyte _ (by omega)) ((hbyte _ (by omega)).trans (by omega))
      ((hbyte _ (by omega)).trans (by omega)) ((hbyte _ (by omega)).trans (by omega))

/-- A code point has one spelling. -/
theorem Spells.eq (h : Spells bytes n) (h' : Spells front n) : bytes = front := by
  cases h <;> cases h' <;>
    simp only [List.cons.injEq, ← UInt8.toNat_inj, reduceCtorEq, and_false, and_true] <;> omega

/-- What is spelled is the number of a character: surrogates are excluded, and so is what is too
large. -/
theorem Spells.isValidChar (h : Spells bytes n) : n.isValidChar := by
  unfold Nat.isValidChar
  cases h <;> omega

theorem Spells.toNat_ofNat (h : Spells bytes n) : (Char.ofNat n).toNat = n := by
  rw [Char.ofNat, dif_pos h.isValidChar]
  rfl

/-- The character with the number that bytes spell is written as these bytes, as there is one
spelling only. -/
theorem Spells.encodeChar_eq (h : Spells bytes n) : encodeChar (Char.ofNat n) = bytes := by
  have hspells := spells_encodeChar (Char.ofNat n)
  rw [h.toNat_ofNat] at hspells
  exact hspells.eq h

/-! ## Reading -/

theorem continues_iff : continues b = true ↔ 0x80 ≤ b.toNat ∧ b.toNat < 0xc0 := by
  simp [continues, UInt8.le_iff_toNat_le, UInt8.lt_iff_toNat_lt]

/-- The ones that may come second. Behind four of the first bytes some are excluded: those of
overlong spellings, of surrogates, and of numbers that are too large. -/
theorem mayFollow_iff :
    mayFollow a b = true
      ↔ (0x80 ≤ b.toNat ∧ b.toNat < 0xc0) ∧ (a.toNat = 0xe0 → 0xa0 ≤ b.toNat)
        ∧ (a.toNat = 0xed → b.toNat < 0xa0) ∧ (a.toNat = 0xf0 → 0x90 ≤ b.toNat)
        ∧ (a.toNat = 0xf4 → b.toNat < 0x90) := by
  rw [← continues_iff]
  simp [mayFollow, UInt8.le_iff_toNat_le, UInt8.lt_iff_toNat_lt, ← UInt8.toNat_inj, and_assoc,
    Decidable.imp_iff_not_or]

/-- How many bytes belong together, by the first of them. -/
theorem sizeOf?_eq (a : UInt8) :
    sizeOf? a = if a.toNat < 0x80 then some 1 else if a.toNat < 0xc2 then none
      else if a.toNat < 0xe0 then some 2 else if a.toNat < 0xf0 then some 3
      else if a.toNat < 0xf5 then some 4 else none := by
  simp [sizeOf?, UInt8.lt_iff_toNat_lt]

theorem sizeOf?_eq_some_one : sizeOf? a = some 1 ↔ a.toNat < 0x80 := by
  rw [sizeOf?_eq]
  grind

theorem sizeOf?_eq_some_two : sizeOf? a = some 2 ↔ 0xc2 ≤ a.toNat ∧ a.toNat < 0xe0 := by
  rw [sizeOf?_eq]
  grind

theorem sizeOf?_eq_some_three : sizeOf? a = some 3 ↔ 0xe0 ≤ a.toNat ∧ a.toNat < 0xf0 := by
  rw [sizeOf?_eq]
  grind

theorem sizeOf?_eq_some_four : sizeOf? a = some 4 ↔ 0xf0 ≤ a.toNat ∧ a.toNat < 0xf5 := by
  rw [sizeOf?_eq]
  grind

/-- A character is read from its spelling, whatever stands behind it. By cases on how many bytes
there are: each time the size, what may follow and the value come out of the numbers of the bytes.
-/
theorem Spells.decodeFrom (h : Spells front n) (position : Nat) (rest : List UInt8) :
    decodeFrom position (front ++ rest)
      = (Utf8.decodeFrom (position + front.length) rest).map (Char.ofNat n :: ·) := by
  cases h with
  | @one a n h ha =>
    have hsize : sizeOf? a = some 1 := sizeOf?_eq_some_one.2 (by omega)
    rw [List.singleton_append, Utf8.decodeFrom.eq_def]
    simp only [hsize, ha, List.length_singleton]
  -- from here on the size comes first, then what may follow, then the value
  | @two a b n hleast h ha hb =>
    have hsize : sizeOf? a = some 2 := sizeOf?_eq_some_two.2 (by omega)
    have hfollow : mayFollow a b = true := mayFollow_iff.2 (by omega)
    have hvalue : a.toNat % 32 * 64 + low b = n := by
      unfold low
      omega
    rw [List.cons_append, List.singleton_append, Utf8.decodeFrom.eq_def]
    simp only [hsize, hfollow, if_true, hvalue]
    rfl
  | @three a b c n hleast h hsurrogate ha hb hc =>
    have hsize : sizeOf? a = some 3 := sizeOf?_eq_some_three.2 (by omega)
    have hfollow : (mayFollow a b && continues c) = true := by
      rw [Bool.and_eq_true, mayFollow_iff, continues_iff]
      omega
    have hvalue : a.toNat % 16 * 4096 + low b * 64 + low c = n := by
      unfold low
      omega
    rw [List.cons_append, List.cons_append, List.singleton_append, Utf8.decodeFrom.eq_def]
    simp only [hsize, hfollow, if_true, hvalue]
    rfl
  | @four a b c d n hleast h ha hb hc hd =>
    have hsize : sizeOf? a = some 4 := sizeOf?_eq_some_four.2 (by omega)
    have hfollow : (mayFollow a b && continues c && continues d) = true := by
      rw [Bool.and_eq_true, Bool.and_eq_true, mayFollow_iff, continues_iff, continues_iff]
      omega
    have hvalue : a.toNat % 8 * 262144 + low b * 4096 + low c * 64 + low d = n := by
      unfold low
      omega
    rw [List.cons_append, List.cons_append, List.cons_append, List.singleton_append,
      Utf8.decodeFrom.eq_def]
    simp only [hsize, hfollow, if_true, hvalue]
    rfl

/-- What was written is read back, character by character and wherever in a file it stands. -/
theorem decodeFrom_encode (position : Nat) (s : List Char) :
    decodeFrom position (encode s) = .ok s := by
  induction s generalizing position with
  | nil => rfl
  | cons c s ih =>
    rw [encode, List.flatMap_cons, ← encode, (spells_encodeChar c).decodeFrom, ih, Char.ofNat_toNat]
    rfl

/-- If a character was read from the bytes in front, and the rest is what is read from it, then all is
written as it was. -/
theorem encode_of_map {text : List Char} (hspells : Spells front n)
    (h : (Utf8.decodeFrom position rest).map (Char.ofNat n :: ·) = .ok text)
    (ih : ∀ {s}, Utf8.decodeFrom position rest = .ok s → encode s = rest) :
    encode text = front ++ rest := by
  cases hrest : Utf8.decodeFrom position rest with
  | error why =>
    rw [hrest] at h
    cases h
  | ok s =>
    rw [hrest] at h
    cases h
    rw [encode, List.flatMap_cons, ← encode, hspells.encodeChar_eq, ih hrest]

/-- What is read was written that way. By the cases of the reader: each one that reads a character
has bytes in front of it that spell the character. -/
theorem encode_of_decodeFrom (h : decodeFrom position bytes = .ok s) : encode s = bytes := by
  fun_induction decodeFrom position bytes generalizing s with
  | case1 =>
    cases h
    rfl
  -- the reader stops with an error
  | case2 | case5 | case7 | case9 | case10 => cases h
  | case3 position a rest hsize ih =>
    have ha := sizeOf?_eq_some_one.1 hsize
    exact encode_of_map (.one ha rfl) h ih
  | case4 position a b rest hsize hfollow ih =>
    have ha := sizeOf?_eq_some_two.1 hsize
    have hb := mayFollow_iff.1 hfollow
    have hspells : Spells [a, b] (a.toNat % 32 * 64 + low b) := by
      unfold low
      exact .two (by omega) (by omega) (by omega) (by omega)
    exact encode_of_map hspells h ih
  | case6 position a b c rest hsize hfollow ih =>
    have ha := sizeOf?_eq_some_three.1 hsize
    rw [Bool.and_eq_true, mayFollow_iff, continues_iff] at hfollow
    have hspells : Spells [a, b, c] (a.toNat % 16 * 4096 + low b * 64 + low c) := by
      unfold low
      exact .three (by omega) (by omega) (by omega) (by omega) (by omega) (by omega)
    exact encode_of_map hspells h ih
  | case8 position a b c d rest hsize hfollow ih =>
    have ha := sizeOf?_eq_some_four.1 hsize
    rw [Bool.and_eq_true, Bool.and_eq_true, mayFollow_iff, continues_iff, continues_iff] at hfollow
    have hspells : Spells [a, b, c, d]
        (a.toNat % 8 * 262144 + low b * 4096 + low c * 64 + low d) := by
      unfold low
      exact .four (by omega) (by omega) (by omega) (by omega) (by omega) (by omega)
    exact encode_of_map hspells h ih

/-- **Reading undoes writing, and nothing else is read**: bytes are read as a text exactly if they are
those that it is written as. -/
theorem decode_eq_ok_iff : decode bytes = .ok s ↔ encode s = bytes := by
  constructor
  · exact encode_of_decodeFrom
  · rintro rfl
    exact decodeFrom_encode 0 s

end BlockTheme.Text.Utf8
