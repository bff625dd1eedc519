import BlockTheme.Proofs.Markup.Segments

/-!
# The nesting of comments

A comment says that a block begins, that one ends, or neither (`Comment.delimiter`). The comments of
tidy markup nest as its blocks do (`Markup.nested_comments`).
-/

namespace BlockTheme

/-! ## Delimiters -/

/-- What a comment says about blocks: that one with a name begins or ends, that one without content
stands here, or nothing. -/
inductive Delimiter where
  | opens (name : List Char)
  | closes (name : List Char)
  | refers
  | remarks
  deriving DecidableEq

namespace Comment

/-- The delimiter that a comment is. The name of a block ends at a blank, and a reference at a
slash. -/
def delimiter (c : Comment) : Delimiter :=
  match Text.dropStart? [' ', 'w', 'p', ':'] c.words,
    Text.dropStart? [' ', '/', 'w', 'p', ':'] c.words with
  | some rest, _ =>
    if rest.getLast? = some '/' then .refers else .opens (rest.takeWhile (· != ' '))
  | none, some rest => .closes (rest.takeWhile (· != ' '))
  | none, none => .remarks

/-- Comments in which every block that begins is ended by a delimiter with its name, after blocks
that nest in the same way. -/
inductive Nested : List Comment → Prop
  | nil : Nested []
  | lone {c : Comment} {rest : List Comment} (hc : c.delimiter = .refers ∨ c.delimiter = .remarks)
      (hrest : Nested rest) : Nested (c :: rest)
  | block {first last : Comment} {name : List Char} {content rest : List Comment}
      (hfirst : first.delimiter = .opens name) (hlast : last.delimiter = .closes name)
      (hcontent : Nested content) (hrest : Nested rest) :
      Nested (first :: (content ++ last :: rest))

/-- Comments that nest stay nested behind others that do. -/
theorem Nested.append {a b : List Comment} (ha : Nested a) (hb : Nested b) : Nested (a ++ b) := by
  induction ha with
  | nil => exact hb
  | lone hc _ ih => exact .lone hc ih
  | block hfirst hlast hcontent _ _ ih =>
    rw [List.cons_append, List.append_assoc, List.cons_append]
    exact .block hfirst hlast hcontent ih

end Comment

/-! ## Delimiters of written markup -/

namespace Markup

/-- The name of a block is read up to the blank behind it, which stands there with attributes and
without. -/
theorem takeWhile_name {name : String} (h : ' ' ∉ name.toList) (rest : List Char)
    (hrest : rest.head? = some ' ') :
    (name.toList ++ rest).takeWhile (· != ' ') = name.toList := by
  obtain ⟨more, rfl⟩ : ∃ more, rest = ' ' :: more := by
    cases rest with
    | nil => simp at hrest
    | cons c more => exact ⟨more, by simpa using hrest⟩
  have hall : ∀ c ∈ name.toList, (c != ' ') = true := by
    intro c hc
    have hne : c ≠ ' ' := fun heq => h (heq ▸ hc)
    simpa using hne
  rw [List.takeWhile_append_of_pos hall, List.takeWhile_cons_of_neg (by simp), List.append_nil]

/-- The comment that opens a block is read as that, with its name. It neither begins with the stroke
of an end nor ends with that of a block without content. -/
theorem delimiter_opening {name : String} (h : TidyName name) (attributes : Fields)
    (place : Nat) :
    Comment.delimiter ⟨place, openingWords name attributes⟩ = .opens name.toList := by
  have hdrop : Text.dropStart? [' ', 'w', 'p', ':'] (openingWords name attributes)
      = some (name.toList ++ (writeBlockAttributes attributes ++ [' '])) :=
    Text.dropStart?_eq_some.2 rfl
  have hlast : (name.toList ++ (writeBlockAttributes attributes ++ [' '])).getLast? = some ' ' := by
    rw [← List.append_assoc]
    exact List.getLast?_concat
  have hname := takeWhile_name h.1 _ (head?_writeBlockAttributes attributes [])
  simp only [Comment.delimiter, hdrop, hlast, hname]
  rfl

/-- The one of a block without content refers, by the slash at its end. -/
theorem delimiter_reference {name : String} (attributes : Fields) (place : Nat) :
    Comment.delimiter ⟨place, referenceWords name attributes⟩ = .refers := by
  have hdrop : Text.dropStart? [' ', 'w', 'p', ':'] (referenceWords name attributes)
      = some (name.toList ++ (writeBlockAttributes attributes ++ [' ', '/'])) :=
    Text.dropStart?_eq_some.2 rfl
  have hlast : (name.toList ++ (writeBlockAttributes attributes ++ [' ', '/'])).getLast?
      = some '/' := by
    simp [List.getLast?_append]
  simp only [Comment.delimiter, hdrop, hlast, if_true]

/-- The comment that closes a block is read with the name as well, so that the two can be matched.
-/
theorem delimiter_closing {name : String} (h : TidyName name) (place : Nat) :
    Comment.delimiter ⟨place, closingWords name⟩ = .closes name.toList := by
  have hno : Text.dropStart? [' ', 'w', 'p', ':'] (closingWords name) = none := by
    rw [Text.dropStart?_eq_none]
    simp [closingWords, List.cons_prefix_cons]
  have hdrop : Text.dropStart? [' ', '/', 'w', 'p', ':'] (closingWords name)
      = some (name.toList ++ [' ']) :=
    Text.dropStart?_eq_some.2 rfl
  simp only [Comment.delimiter, hno, hdrop, takeWhile_name h.1 [' '] rfl]

theorem delimiter_remark {words : String} (h : TidyWords words) (place : Nat) :
    Comment.delimiter ⟨place, remarkWords words⟩ = .remarks := by
  have hopens : Text.dropStart? [' ', 'w', 'p', ':'] (remarkWords words) = none := by
    rw [Text.dropStart?_eq_none, remarkWords, List.cons_prefix_cons]
    exact fun hstarts => h.1 ((Text.prefix_append_cons (by decide)).1 hstarts.2)
  have hcloses : Text.dropStart? [' ', '/', 'w', 'p', ':'] (remarkWords words) = none := by
    rw [Text.dropStart?_eq_none, remarkWords, List.cons_prefix_cons]
    exact fun hstarts => h.2 ((Text.prefix_append_cons (by decide)).1 hstarts.2)
  simp only [Comment.delimiter, hopens, hcloses]

mutual

/-- **The comments of a tidy piece nest.** Every delimiter that opens a block has one that closes
it, with the same name and with nested comments between the two. -/
theorem nested_segments :
    ∀ {piece : Markup}, Tidy piece → ∀ place : Nat,
      Comment.Nested (Segment.comments place (segments piece))
  | .text _, _, _ | .void _ _, _, _ => .nil
  | .element tag attributes content, h, place => by
    rw [segments, Segment.comments, Segment.comments_append]
    simpa [Segment.comments] using nested_segmentsAll h.2.2 _
  | .block name attributes content, h, place => by
    -- the comments of the content stand between the two delimiters
    rw [segments, Segment.comments, Segment.comments, Segment.comments_append]
    exact .block (delimiter_opening h.1 attributes _) (delimiter_closing h.1 _)
      (nested_segmentsAll h.2.2 _) .nil
  | .reference name attributes, _, place => .lone (Or.inl (delimiter_reference attributes _)) .nil
  | .remark words, h, place => .lone (Or.inr (delimiter_remark h _)) .nil

/-- Pieces one behind the other nest, if each of them does. -/
theorem nested_segmentsAll :
    ∀ {pieces : List Markup}, TidyAll pieces → ∀ place : Nat,
      Comment.Nested (Segment.comments place (segmentsAll pieces))
  | [], _, _ => .nil
  | piece :: rest, h, place => by
    rw [segmentsAll, Segment.comments_append]
    exact (nested_segments h.1 place).append (nested_segmentsAll h.2 _)

end

/-- The comments of tidy markup nest as its blocks do. -/
theorem nested_comments {pieces : List Markup} (h : TidyAll pieces) :
    Comment.Nested (comments pieces) := nested_segmentsAll h 0

end Markup

end BlockTheme
