import BlockTheme.Chunks
import Mathlib.Data.List.Basic
import Mathlib.Data.Rat.Floor

/-!
# Pieces put together again

The pieces of a list are cut one after the other, so that put together they are the list again
(`flatten_slices`). A list that is spread over chunks is kept whole by every count of at least one
and lost by all others (`flatten_chunks_eq_self_iff`). All chunks but the last one are as long as
an even share of the list, rounded up, and there are as many as it takes (`chunks_partition`).
-/

namespace BlockTheme

variable {α β : Type}

/-- Changing the items of a list and slicing it can be done in any order. -/
theorem slices_map (f : α → β) (size : Nat) (xs : List α) :
    slices size (xs.map f) = (slices size xs).map (List.map f) := by
  unfold slices
  rw [List.length_map, List.map_map]
  refine List.map_congr_left fun i _ => ?_
  show ((xs.map f).drop (i * size)).take size = ((xs.drop (i * size)).take size).map f
  rw [← List.map_drop, ← List.map_take]

/-- Chunks are cut by how many items there are, whatever they are. -/
theorem chunks_map (f : α → β) (count : Int) (xs : List α) :
    chunks count (xs.map f) = (chunks count xs).map (List.map f) := by
  unfold chunks
  split
  · rfl
  · rw [List.length_map, slices_map]

/-! ## How many pieces -/

/-- There are no more pieces than it takes. -/
theorem pieces_le_iff (count : Nat) {size k : Nat} (hsize : 0 < size) :
    pieces count size ≤ k ↔ count ≤ k * size := by
  rw [pieces, Nat.div_le_iff_le_mul_add_pred hsize, Nat.mul_comm k]
  omega

theorem lt_pieces_iff (count : Nat) {size i : Nat} (hsize : 0 < size) :
    i < pieces count size ↔ i * size < count := by
  rw [← Nat.not_le, ← Nat.not_le, pieces_le_iff count hsize]

/-- So many pieces are enough. -/
theorem le_pieces_mul (count : Nat) {size : Nat} (hsize : 0 < size) :
    count ≤ pieces count size * size :=
  (pieces_le_iff count hsize).1 (Nat.le_refl _)

/-- The number of pieces is the exact quotient, rounded up. -/
theorem pieces_eq_ceil (count : Nat) {size : Nat} (hsize : 0 < size) :
    pieces count size = ⌈(count / size : ℚ)⌉₊ := by
  have hpositive : (0 : ℚ) < size := Nat.cast_pos.2 hsize
  refine eq_of_forall_ge_iff fun k => ?_
  rw [pieces_le_iff count hsize, Nat.ceil_le, div_le_iff₀ hpositive]
  exact_mod_cast Iff.rfl

/-- Items that are spread over some pieces have a size for them. -/
theorem pieces_pos {count size : Nat} (hcount : 0 < count) (hsize : 0 < size) :
    0 < pieces count size := by
  rw [lt_pieces_iff count hsize]
  omega

/-- Pieces of the size of an even share are no more than the shares. -/
theorem pieces_pieces_le {count shares : Nat} (hcount : 0 < count) (hshares : 0 < shares) :
    pieces count (pieces count shares) ≤ shares := by
  rw [pieces_le_iff count (pieces_pos hcount hshares), Nat.mul_comm]
  exact le_pieces_mul count hshares

/-! ## One piece -/

/-- The piece of a list with a number. -/
def piece (size : Nat) (xs : List α) (i : Nat) : List α := (xs.drop (i * size)).take size

theorem slices_eq_map_piece (size : Nat) (xs : List α) :
    slices size xs = (List.range (pieces xs.length size)).map (piece size xs) := rfl

theorem slices_nil (size : Nat) : slices size ([] : List α) = [] := by
  have hnone : pieces 0 size = 0 := by
    rw [pieces]
    rcases Nat.eq_zero_or_pos size with rfl | hsize
    · rfl
    · exact Nat.div_eq_of_lt (by omega)
  rw [slices_eq_map_piece, List.length_nil, hnone]
  rfl

theorem length_piece (size : Nat) (xs : List α) (i : Nat) :
    (piece size xs i).length = min size (xs.length - i * size) := by
  rw [piece, List.length_take, List.length_drop]

/-- What is cut behind the end of a list is empty, and nothing else is. -/
theorem piece_ne_nil_iff {size : Nat} (hsize : 0 < size) {xs : List α} {i : Nat} :
    piece size xs i ≠ [] ↔ i < pieces xs.length size := by
  rw [lt_pieces_iff xs.length hsize, ← List.length_pos_iff, length_piece]
  omega

/-- A piece with another one behind it is full. -/
theorem length_piece_of_lt {size : Nat} (hsize : 0 < size) {xs : List α} {i : Nat}
    (h : i + 1 < pieces xs.length size) : (piece size xs i).length = size := by
  rw [lt_pieces_iff xs.length hsize, Nat.succ_mul] at h
  rw [length_piece]
  omega

theorem length_of_mem_dropLast_slices {size : Nat} (hsize : 0 < size) {xs cut : List α}
    (h : cut ∈ (slices size xs).dropLast) : cut.length = size := by
  rw [slices_eq_map_piece, ← List.map_dropLast] at h
  obtain ⟨i, hi, rfl⟩ := List.mem_map.1 h
  refine length_piece_of_lt hsize ?_
  cases hcount : pieces xs.length size with
  | zero => simp [hcount] at hi
  | succ last =>
    rw [hcount, List.range_succ, List.dropLast_concat, List.mem_range] at hi
    omega

/-- Of any number of cuts of a list, as long as they are enough, those that are not empty are its
pieces. -/
theorem filter_map_piece {size count : Nat} (hsize : 0 < size) {xs : List α}
    (hcount : pieces xs.length size ≤ count) :
    ((List.range count).map (piece size xs)).filter (!·.isEmpty) = slices size xs := by
  obtain ⟨more, rfl⟩ := Nat.exists_eq_add_of_le hcount
  -- the pieces that the list has are not empty
  have hkept : ∀ cut ∈ (List.range (pieces xs.length size)).map (piece size xs),
      (!cut.isEmpty) = true := by
    intro cut hcut
    obtain ⟨i, hi, rfl⟩ := List.mem_map.1 hcut
    simpa using (piece_ne_nil_iff hsize).2 (List.mem_range.1 hi)
  -- and behind them there are only empty ones
  have hdropped : ∀ cut ∈ ((List.range more).map (pieces xs.length size + ·)).map (piece size xs),
      ¬(!cut.isEmpty) = true := by
    intro cut hcut
    obtain ⟨i, hi, rfl⟩ := List.mem_map.1 hcut
    obtain ⟨j, -, rfl⟩ := List.mem_map.1 hi
    have hbehind : piece size xs (pieces xs.length size + j) = [] := by
      by_contra hne
      have hlt := (piece_ne_nil_iff hsize).1 hne
      omega
    simp [hbehind]
  rw [List.range_add, List.map_append, List.filter_append, List.filter_eq_self.2 hkept,
    List.filter_eq_nil_iff.2 hdropped, List.append_nil, slices_eq_map_piece]

/-! ## Pieces put together -/

/-- The first pieces of a list are a beginning of it. -/
theorem flatten_slices_take (size count : Nat) (xs : List α) :
    ((List.range count).map fun i => (xs.drop (i * size)).take size).flatten
      = xs.take (count * size) := by
  induction count with
  | zero => simp
  | succ count ih =>
    rw [List.range_succ, List.map_append, List.flatten_append, ih, Nat.succ_mul, List.take_add]
    simp

theorem flatten_slices {size : Nat} (hsize : 0 < size) (xs : List α) :
    (slices size xs).flatten = xs := by
  rw [slices, flatten_slices_take, List.take_of_length_le (le_pieces_mul xs.length hsize)]

/-- A count below one gives no chunks, and with them all items are lost. -/
theorem chunks_of_lt {count : Int} (hcount : count < 1) (xs : List α) : chunks count xs = [] := by
  rw [chunks, if_pos hcount]

/-- Any other count loses nothing and keeps the order. -/
theorem flatten_chunks {count : Int} (hcount : 1 ≤ count) (xs : List α) :
    (chunks count xs).flatten = xs := by
  rw [chunks, if_neg (by omega)]
  cases xs with
  | nil => rw [slices_nil, List.flatten_nil]
  | cons x rest => exact flatten_slices (pieces_pos (Nat.succ_pos _) (by omega)) _

theorem subset_of_mem_chunks {count : Int} {xs chunk : List α} (h : chunk ∈ chunks count xs) :
    chunk ⊆ xs := by
  by_cases hcount : count < 1
  · simp [chunks_of_lt hcount] at h
  · intro x hx
    have hone : 1 ≤ count := by omega
    rw [← flatten_chunks hone xs]
    exact List.mem_flatten.2 ⟨chunk, h, hx⟩

/-- Chunks are what is left of as many cuts as there may be chunks, each of an even share of the
list, when the empty ones are dropped. -/
theorem chunks_eq_filter {count : Int} (hcount : 1 ≤ count) (xs : List α) :
    chunks count xs
      = ((List.range count.toNat).map (piece (pieces xs.length count.toNat) xs)).filter
        (!·.isEmpty) := by
  have hpositive : 0 < count.toNat := by omega
  rw [chunks, if_neg (by omega)]
  cases xs with
  | nil =>
    have hcut : piece (pieces 0 count.toNat) ([] : List α) = fun _ => [] := by
      funext i
      simp [piece]
    rw [List.length_nil, hcut, slices_nil]
    simp
  | cons x rest =>
    have hlength : 0 < (x :: rest).length := Nat.succ_pos _
    rw [filter_map_piece (pieces_pos hlength hpositive) (pieces_pieces_le hlength hpositive)]

/-- All chunks but the last one hold an even share of the list. -/
theorem length_of_mem_dropLast_chunks {count : Int} (hcount : 1 ≤ count) {xs chunk : List α}
    (h : chunk ∈ (chunks count xs).dropLast) :
    chunk.length = pieces xs.length count.toNat := by
  rw [chunks, if_neg (by omega)] at h
  cases xs with
  | nil =>
    rw [slices_nil] at h
    cases h
  | cons x rest =>
    exact length_of_mem_dropLast_slices (pieces_pos (Nat.succ_pos _) (by omega)) h

/-- **Nothing is lost over a count of chunks exactly if there is a chunk for it.** With a count
below one there are no chunks, and then only an empty list loses nothing. -/
theorem flatten_chunks_eq_self_iff (count : Int) (xs : List α) :
    (chunks count xs).flatten = xs ↔ 1 ≤ count ∨ xs = [] := by
  by_cases hcount : count < 1
  · rw [chunks_of_lt hcount, List.flatten_nil, eq_comm]
    exact ⟨Or.inr, fun h => h.resolve_left (by omega)⟩
  · have hone : 1 ≤ count := by omega
    simp [flatten_chunks hone, hone]

/-- **Chunks are a partition of the list, in its order.** They are no more than the count, none of
them is empty, and all of them but the last one hold an even share of the list, rounded up; the last
one holds no more. -/
theorem chunks_partition {count : Int} (hcount : 1 ≤ count) (xs : List α) :
    (chunks count xs).flatten = xs
      ∧ ((chunks count xs).length : Int) ≤ count
      ∧ (∀ chunk ∈ chunks count xs, chunk ≠ [])
      ∧ (∀ chunk ∈ (chunks count xs).dropLast, chunk.length = ⌈(xs.length / count : ℚ)⌉₊)
      ∧ ∀ chunk ∈ chunks count xs, chunk.length ≤ ⌈(xs.length / count : ℚ)⌉₊ := by
  have hpositive : 0 < count.toNat := by omega
  have hcast : (count : ℚ) = count.toNat := by
    exact_mod_cast (Int.toNat_of_nonneg (by omega : 0 ≤ count)).symm
  -- the size of a chunk, with the program's way of rounding up
  have hshare : ⌈(xs.length / count : ℚ)⌉₊ = pieces xs.length count.toNat := by
    rw [hcast, pieces_eq_ceil xs.length hpositive]
  rw [hshare]
  refine ⟨flatten_chunks hcount xs, ?_, ?_, fun _ => length_of_mem_dropLast_chunks hcount, ?_⟩
  -- no more chunks than cuts were made, as empty ones are left out
  · rw [chunks_eq_filter hcount]
    have hcuts := List.length_filter_le (!·.isEmpty)
      ((List.range count.toNat).map (piece (pieces xs.length count.toNat) xs))
    rw [List.length_map, List.length_range] at hcuts
    omega
  · intro chunk hchunk
    rw [chunks_eq_filter hcount] at hchunk
    simpa using (List.mem_filter.1 hchunk).2
  · intro chunk hchunk
    rw [chunks_eq_filter hcount] at hchunk
    obtain ⟨i, -, rfl⟩ := List.mem_map.1 (List.mem_filter.1 hchunk).1
    rw [length_piece]
    exact Nat.min_le_left _ _

/-- Five letters over two chunks: the first one holds three of them, and the last one the others. -/
theorem chunks_partition_letters :
    1 ≤ (2 : Int)
      ∧ chunks 2 "abcde".toList = ["abc".toList, "de".toList]
      ∧ (chunks 2 "abcde".toList).flatten = "abcde".toList
      ∧ "abc".toList ∈ (chunks 2 "abcde".toList).dropLast
      ∧ "abc".toList.length = ⌈("abcde".toList.length / (2 : Int) : ℚ)⌉₊
      ∧ "de".toList ∈ chunks 2 "abcde".toList
      ∧ "de".toList ≠ []
      ∧ "de".toList.length ≤ ⌈("abcde".toList.length / (2 : Int) : ℚ)⌉₊ := by
  have hcount : 1 ≤ (2 : Int) := by decide
  have hchunks : chunks 2 "abcde".toList = ["abc".toList, "de".toList] := by decide
  have hfirst : "abc".toList ∈ (chunks 2 "abcde".toList).dropLast := by decide
  have hlast : "de".toList ∈ chunks 2 "abcde".toList := by decide
  obtain ⟨hflatten, -, hfilled, hfull, hsize⟩ := chunks_partition hcount "abcde".toList
  exact ⟨hcount, hchunks, hflatten, hfirst, hfull _ hfirst, hlast, hfilled _ hlast, hsize _ hlast⟩

end BlockTheme
