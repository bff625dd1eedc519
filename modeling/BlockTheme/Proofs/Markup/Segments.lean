import BlockTheme.Markup
import BlockTheme.Proofs.Json.Texts

/-!
# The segments of block markup

A piece of markup writes plain text and comments: the two delimiters of every block, references and
remarks (`Markup.segments`). Its text is that of its segments (`Markup.write_eq_segments`). Markup
in which only the values of attributes and the words of remarks can be any text is tidy
(`Markup.Tidy`); its segments are closed, so that no comment begins across the end of one.
-/

namespace BlockTheme

namespace Markup

/-! ## Segments

The words of the two delimiters of a block, of a reference and of a remark, and the tags of an
element. -/

/-- What stands in the delimiter that opens a block. -/
def openingWords (name : String) (attributes : Fields) : List Char :=
  [' ', 'w', 'p', ':'] ++ (name.toList ++ (writeBlockAttributes attributes ++ [' ']))

/-- What stands in the one that closes it. -/
def closingWords (name : String) : List Char :=
  [' ', '/', 'w', 'p', ':'] ++ (name.toList ++ [' '])

/-- What stands in the delimiter of a block without content. -/
def referenceWords (name : String) (attributes : Fields) : List Char :=
  [' ', 'w', 'p', ':'] ++ (name.toList ++ (writeBlockAttributes attributes ++ [' ', '/']))

/-- What stands in a comment that is no delimiter. -/
def remarkWords (words : String) : List Char := ' ' :: (words.toList ++ [' '])

/-- A tag that opens an element. `stop` is how it ends: in a bracket, with a slash in front if the
element has no content. -/
def startTag (tag : String) (attributes : List (String × String)) (stop : List Char) : List Char :=
  '<' :: (tag.toList ++ (writeAttributes attributes ++ stop))

/-- A tag that closes an element. -/
def endTag (tag : String) : List Char := '<' :: '/' :: (tag.toList ++ ['>'])

/-- Behind the name of a block stands a blank, whether there are attributes or not, so that the name
can be read back. -/
theorem head?_writeBlockAttributes (attributes : Fields) (rest : List Char) :
    (writeBlockAttributes attributes ++ ' ' :: rest).head? = some ' ' := by
  unfold writeBlockAttributes
  split <;> rfl

mutual

/-- The segments of a piece. -/
def segments : Markup → List Segment
  | .text written => [.plain written.toList]
  | .element tag attributes content =>
    .plain (startTag tag attributes ['>']) :: (segmentsAll content ++ [.plain (endTag tag)])
  | .void tag attributes => [.plain (startTag tag attributes ['/', '>'])]
  | .block name attributes content =>
    -- the delimiters stand on lines of their own
    .comment (openingWords name attributes) :: .plain ['\n']
      :: (segmentsAll content ++ [.plain ['\n'], .comment (closingWords name)])
  | .reference name attributes => [.comment (referenceWords name attributes)]
  | .remark words => [.comment (remarkWords words)]

def segmentsAll : List Markup → List Segment
  | [] => []
  | piece :: rest => segments piece ++ segmentsAll rest

end

/-! The equations of the writer, with the two ends of a comment by their names. -/

theorem write_text (written : String) : write (.text written) = written.toList := rfl

/-- An element is written as its tags with its content between them. -/
theorem write_element (tag : String) (attributes : List (String × String))
    (content : List Markup) :
    write (.element tag attributes content)
      = startTag tag attributes ['>'] ++ (writeAll content ++ endTag tag) := by
  have hwrite : write (.element tag attributes content)
      = '<' :: (tag.toList ++ writeAttributes attributes ++ '>' :: writeAll content
        ++ '<' :: '/' :: (tag.toList ++ ['>'])) := rfl
  simp [hwrite, startTag, endTag]

/-- An element without content is written as one tag. -/
theorem write_void (tag : String) (attributes : List (String × String)) :
    write (.void tag attributes) = startTag tag attributes ['/', '>'] := by
  have hwrite : write (.void tag attributes)
      = '<' :: (tag.toList ++ writeAttributes attributes ++ ['/', '>']) := rfl
  simp [hwrite, startTag]

/-- A block is written as two comments, each on lines of their own, with its content between them.
-/
theorem write_block (name : String) (attributes : Fields) (content : List Markup) :
    write (.block name attributes content)
      = Comment.opening ++ (openingWords name attributes ++ (Comment.closing
        ++ '\n' :: (writeAll content
          ++ '\n' :: (Comment.opening ++ (closingWords name ++ Comment.closing))))) := by
  have hwrite : write (.block name attributes content)
      = (Comment.opening ++ [' ', 'w', 'p', ':']) ++ name.toList ++ writeBlockAttributes attributes
        ++ (' ' :: (Comment.closing ++ ['\n'])) ++ writeAll content
        ++ ('\n' :: (Comment.opening ++ [' ', '/', 'w', 'p', ':'])) ++ name.toList
        ++ (' ' :: Comment.closing) := rfl
  simp [hwrite, openingWords, closingWords]

theorem write_reference (name : String) (attributes : Fields) :
    write (.reference name attributes)
      = Comment.opening ++ (referenceWords name attributes ++ Comment.closing) := by
  have hwrite : write (.reference name attributes)
      = (Comment.opening ++ [' ', 'w', 'p', ':']) ++ name.toList ++ writeBlockAttributes attributes
        ++ (' ' :: '/' :: Comment.closing) := rfl
  simp [hwrite, referenceWords]

theorem write_remark (words : String) :
    write (.remark words) = Comment.opening ++ (remarkWords words ++ Comment.closing) := by
  have hwrite : write (.remark words)
      = (Comment.opening ++ [' ']) ++ words.toList ++ (' ' :: Comment.closing) := rfl
  simp [hwrite, remarkWords]

theorem writeAll_cons (piece : Markup) (rest : List Markup) :
    writeAll (piece :: rest) = write piece ++ writeAll rest := rfl

mutual

/-- A piece is written as its segments: plain text and comments in turn. The scan knows these only,
and neither elements nor blocks. -/
theorem write_eq_segments : ∀ piece : Markup, write piece = Segment.writeAll (segments piece)
  | .text written => by simp [write_text, segments, Segment.writeAll, Segment.write]
  | .element tag attributes content => by
    rw [write_element, writeAll_eq_segments content]
    simp [segments, Segment.writeAll, Segment.write]
  | .void tag attributes => by simp [write_void, segments, Segment.writeAll, Segment.write]
  | .block name attributes content => by
    rw [write_block, writeAll_eq_segments content]
    simp [segments, Segment.writeAll, Segment.write]
  | .reference name attributes => by
    simp [write_reference, segments, Segment.writeAll, Segment.write]
  | .remark words => by simp [write_remark, segments, Segment.writeAll, Segment.write]

/-- By induction on the markup, along with the statement for one piece. -/
theorem writeAll_eq_segments :
    ∀ pieces : List Markup, writeAll pieces = Segment.writeAll (segmentsAll pieces)
  | [] => rfl
  | piece :: rest => by
    rw [writeAll_cons, write_eq_segments piece, writeAll_eq_segments rest]
    simp [segmentsAll, Segment.writeAll]

end

/-- The comments that pieces write, at their places. -/
def comments (pieces : List Markup) : List Comment := Segment.comments 0 (segmentsAll pieces)

/-! ## Tidy markup -/

/-- A tag that begins no comment. -/
def TidyTag (tag : String) : Prop := tag ≠ "" ∧ '<' ∉ tag.toList ∧ '!' ∉ tag.toList

/-- The name of a block: what a delimiter shows up to the next blank. -/
def TidyName (name : String) : Prop := ' ' ∉ name.toList ∧ '>' ∉ name.toList

/-- Words that are no delimiter. -/
def TidyWords (words : String) : Prop :=
  ¬['w', 'p', ':'] <+: words.toList ∧ ¬['/', 'w', 'p', ':'] <+: words.toList

instance (tag : String) : Decidable (TidyTag tag) := inferInstanceAs (Decidable (_ ∧ _ ∧ _))

instance (name : String) : Decidable (TidyName name) := inferInstanceAs (Decidable (_ ∧ _))

mutual

/-- Markup in which only the values of attributes and the words of remarks can be any text. -/
def Tidy : Markup → Prop
  | .text written => '<' ∉ written.toList
  | .element tag attributes content =>
    TidyTag tag ∧ (∀ a ∈ attributes, '<' ∉ a.1.toList) ∧ TidyAll content
  | .void tag attributes => TidyTag tag ∧ ∀ a ∈ attributes, '<' ∉ a.1.toList
  | .block name attributes content =>
    TidyName name ∧ (∀ key ∈ attributes.names, ¬Comment.EndsIn key) ∧ TidyAll content
  | .reference name attributes => TidyName name ∧ ∀ key ∈ attributes.names, ¬Comment.EndsIn key
  | .remark words => TidyWords words

def TidyAll : List Markup → Prop
  | [] => True
  | piece :: rest => Tidy piece ∧ TidyAll rest

end

theorem tidyAll_iff {pieces : List Markup} : TidyAll pieces ↔ ∀ piece ∈ pieces, Tidy piece := by
  induction pieces with
  | nil => simp [TidyAll]
  | cons piece rest ih => rw [TidyAll, ih, List.forall_mem_cons]

/-! ## Segments are closed -/

/-- No comment begins across the end of a tag, which ends in a bracket. -/
theorem closed_startTag (tag : String) (attributes : List (String × String)) {stop : List Char}
    (hstop : stop.getLast? = some '>') : Comment.Closed (startTag tag attributes stop) := by
  right
  have hne : stop ≠ [] := by
    rintro rfl
    simp at hstop
  rw [startTag, ← List.append_assoc, ← List.cons_append, List.getLast?_append_of_ne_nil _ hne,
    hstop]

theorem closed_endTag (tag : String) : Comment.Closed (endTag tag) := by
  right
  simp [endTag, List.getLast?_cons]

mutual

/-- All plain segments of tidy markup are closed: text has no opening bracket, and tags end in a
bracket. -/
theorem closed_of_mem_segments :
    ∀ {piece : Markup}, Tidy piece → ∀ s ∈ segments piece, s.Closed
  | .text written, h => by
    have hclosed : Comment.Closed written.toList := Or.inl h
    simpa [segments, Segment.Closed] using hclosed
  | .element tag attributes content, h => by
    -- a tag is closed by its bracket, whatever its attributes hold
    have hcontent := closed_of_mem_segmentsAll h.2.2
    simp only [segments, List.forall_mem_cons, List.forall_mem_append]
    exact ⟨closed_startTag _ _ rfl, hcontent, closed_endTag _, by simp⟩
  | .void tag attributes, _ => by
    simp only [segments, List.forall_mem_cons]
    exact ⟨closed_startTag _ _ rfl, by simp⟩
  | .block name attributes content, h => by
    have hcontent := closed_of_mem_segmentsAll h.2.2
    have hnewline : Segment.Closed (.plain ['\n']) := Or.inl (by decide)
    simp only [segments, List.forall_mem_cons, List.forall_mem_append]
    exact ⟨trivial, hnewline, hcontent, hnewline, trivial, by simp⟩
  | .reference _ _, _ | .remark _, _ => by simp [segments, Segment.Closed]

theorem closed_of_mem_segmentsAll :
    ∀ {pieces : List Markup}, TidyAll pieces → ∀ s ∈ segmentsAll pieces, s.Closed
  | [], _ => by simp [segmentsAll]
  | piece :: rest, h => by
    rw [segmentsAll, List.forall_mem_append]
    exact ⟨closed_of_mem_segments h.1, closed_of_mem_segmentsAll h.2⟩

end

end Markup

end BlockTheme
