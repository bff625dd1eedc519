import BlockTheme.Proofs.Markup.Comments

/-!
# The heads of block markup

What an element and a block say about themselves stands at their beginning: in the start tag of the
element, and in the delimiter that opens the block. `Markup.heads` lists these heads in the order in
which they are written, and each of them stands in the text (`Markup.infix_write_of_mem_heads`).
-/

namespace BlockTheme

namespace Markup

/-- The beginning of an element or of a block. -/
inductive Head where
  /-- A start tag; `closed` if it ends in a slash. -/
  | tag (name : String) (attributes : List (String × String)) (closed : Bool)
  /-- The delimiter of a block or of a reference. -/
  | delimiter (name : String) (attributes : Fields)

/-- The text of a head. A delimiter goes on after its attributes. -/
def Head.write : Head → List Char
  | .tag name attributes closed => startTag name attributes (if closed then ['/', '>'] else ['>'])
  | .delimiter name attributes =>
    Comment.opening ++ ([' ', 'w', 'p', ':'] ++ (name.toList ++ (writeBlockAttributes attributes ++ [' '])))

mutual

/-- The heads in a piece. -/
def heads : Markup → List Head
  | .text _ => []
  | .element tag attributes content => .tag tag attributes false :: headsAll content
  | .void tag attributes => [.tag tag attributes true]
  | .block name attributes content => .delimiter name attributes :: headsAll content
  | .reference name attributes => [.delimiter name attributes]
  | .remark _ => []

/-- The heads in pieces one after the other. -/
def headsAll : List Markup → List Head
  | [] => []
  | piece :: rest => heads piece ++ headsAll rest

end

theorem headsAll_eq_flatMap (pieces : List Markup) : headsAll pieces = pieces.flatMap heads := by
  induction pieces with
  | nil => rfl
  | cons piece rest ih => rw [headsAll, ih, List.flatMap_cons]

theorem headsAll_append (a b : List Markup) : headsAll (a ++ b) = headsAll a ++ headsAll b := by
  simp only [headsAll_eq_flatMap, List.flatMap_append]

/-- Pieces without heads between others add none. -/
theorem headsAll_intersperse {separator : Markup} (h : heads separator = []) (pieces : List Markup) :
    headsAll (pieces.intersperse separator) = headsAll pieces := by
  induction pieces with
  | nil => rfl
  | cons piece rest ih =>
    cases rest with
    | nil => rfl
    | cons next rest =>
      rw [List.intersperse_cons_cons, headsAll, headsAll, ih, h, List.nil_append]
      rfl

theorem headsAll_spaced (pieces : List Markup) : headsAll (spaced pieces) = headsAll pieces :=
  headsAll_intersperse rfl pieces

theorem headsAll_framed (pieces : List Markup) :
    headsAll ([newline] ++ pieces ++ [newline]) = headsAll pieces := by
  rw [headsAll_append, headsAll_append]
  show [] ++ headsAll pieces ++ [] = headsAll pieces
  rw [List.nil_append, List.append_nil]

/-- A block with one element between its delimiters. -/
theorem heads_block_element (name tag : String) (fields : Fields)
    (attributes : List (String × String)) (content : List Markup) :
    heads (.block name fields [.element tag attributes content])
      = .delimiter name fields :: .tag tag attributes false :: headsAll content := by
  rw [heads, headsAll, heads, headsAll, List.append_nil]

mutual

/-- **A head stands in the text of its piece.** So what is said about heads is said about texts in
the templates. -/
theorem infix_write_of_mem_heads :
    ∀ {piece : Markup} {head : Head}, head ∈ heads piece → head.write <:+: write piece
  | .text _, _, h | .remark _, _, h => by simp [heads] at h
  | .element tag attributes content, head, h => by
    rw [write_element]
    rcases List.mem_cons.1 h with rfl | hin
    · exact List.infix_append_of_infix_left (List.infix_refl _)
    · refine List.infix_append_of_infix_right (List.infix_append_of_infix_left ?_)
      exact infix_writeAll_of_mem_headsAll hin
  | .void tag attributes, head, h => by
    obtain rfl := List.mem_singleton.1 h
    rw [write_void]
    exact List.infix_refl _
  -- the head of a block is its opening delimiter
  | .block name attributes content, head, h => by
    rw [write_block]
    rcases List.mem_cons.1 h with rfl | hin
    · rw [← List.append_assoc]
      exact List.infix_append_of_infix_left (List.infix_refl _)
    · have hcontent := infix_writeAll_of_mem_headsAll hin
      refine List.infix_append_of_infix_right (List.infix_append_of_infix_right
        (List.infix_append_of_infix_right ?_))
      exact List.infix_cons (List.infix_append_of_infix_left hcontent)
  | .reference name attributes, head, h => by
    obtain rfl := List.mem_singleton.1 h
    rw [write_reference]
    exact ⟨[], '/' :: Comment.closing, by simp [Head.write, referenceWords]⟩

theorem infix_writeAll_of_mem_headsAll :
    ∀ {pieces : List Markup} {head : Head}, head ∈ headsAll pieces → head.write <:+: writeAll pieces
  | [], _, h => by simp [headsAll] at h
  | piece :: rest, head, h => by
    rw [writeAll_cons]
    rcases List.mem_append.1 h with hfirst | hrest
    · exact List.infix_append_of_infix_left (infix_write_of_mem_heads hfirst)
    · exact List.infix_append_of_infix_right (infix_writeAll_of_mem_headsAll hrest)

end

end Markup

end BlockTheme
