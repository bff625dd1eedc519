import BlockTheme.Proofs.Markup.Heads

/-!
# The blocks of block markup

A block stands in the text of its markup with all that is in it
(`Markup.infix_write_of_mem_blocks`). What is in a block are elements, and other blocks with elements
of their own: `Markup.styles` lists the style attributes of the elements that are not in an inner
block.
-/

namespace BlockTheme

namespace Markup

/-- A block with its content. -/
structure Block where
  name : String
  attributes : Fields
  content : List Markup

/-- The block as a piece. -/
def Block.piece (b : Block) : Markup := .block b.name b.attributes b.content

mutual

/-- The blocks in a piece, each before those in it. -/
def blocks : Markup → List Block
  | .block name attributes content => ⟨name, attributes, content⟩ :: blocksAll content
  | .element _ _ content => blocksAll content
  | .text _ | .void _ _ | .reference _ _ | .remark _ => []

/-- The blocks in pieces one after the other. -/
def blocksAll : List Markup → List Block
  | [] => []
  | piece :: rest => blocks piece ++ blocksAll rest

end

/-- The style attributes among the attributes of an element. -/
def styleOf (attributes : List (String × String)) : List (String × String) :=
  attributes.filter fun given => given.1 = "style"

mutual

/-- The style attributes of the elements of a piece that stand in no block of it. -/
def styles : Markup → List (String × String)
  | .element _ attributes content => styleOf attributes ++ stylesAll content
  | .void _ attributes => styleOf attributes
  | .text _ | .block _ _ _ | .reference _ _ | .remark _ => []

/-- The style attributes of pieces one after the other. -/
def stylesAll : List Markup → List (String × String)
  | [] => []
  | piece :: rest => styles piece ++ stylesAll rest

end

theorem mem_blocksAll {pieces : List Markup} {b : Block} :
    b ∈ blocksAll pieces ↔ ∃ piece ∈ pieces, b ∈ blocks piece := by
  induction pieces with
  | nil => simp [blocksAll]
  | cons piece rest ih => simp [blocksAll, ih]

theorem stylesAll_eq_nil {pieces : List Markup} (h : ∀ piece ∈ pieces, styles piece = []) :
    stylesAll pieces = [] := by
  induction pieces with
  | nil => rfl
  | cons piece rest ih =>
    obtain ⟨hpiece, hrest⟩ := List.forall_mem_cons.1 h
    rw [stylesAll, hpiece, ih hrest, List.nil_append]

mutual

/-- The delimiter of a block is one of the heads. -/
theorem delimiter_mem_heads :
    ∀ {piece : Markup} {b : Block}, b ∈ blocks piece → .delimiter b.name b.attributes ∈ heads piece
  | .text _, _, h | .void _ _, _, h | .reference _ _, _, h | .remark _, _, h => by
    simp [blocks] at h
  | .element _ _ _, _, h => List.mem_cons_of_mem _ (delimiter_mem_headsAll h)
  | .block _ _ _, _, h => by
    rcases List.mem_cons.1 h with rfl | hin
    · exact List.mem_cons_self
    · exact List.mem_cons_of_mem _ (delimiter_mem_headsAll hin)

theorem delimiter_mem_headsAll :
    ∀ {pieces : List Markup} {b : Block}, b ∈ blocksAll pieces →
      .delimiter b.name b.attributes ∈ headsAll pieces
  | [], _, h => by simp [blocksAll] at h
  | _ :: _, _, h => by
    rw [headsAll, List.mem_append]
    exact (List.mem_append.1 h).imp delimiter_mem_heads delimiter_mem_headsAll

end

mutual

/-- **A block stands in the text of its piece.** With its delimiters and all that is between them.
-/
theorem infix_write_of_mem_blocks :
    ∀ {piece : Markup} {b : Block}, b ∈ blocks piece → write b.piece <:+: write piece
  | .text _, _, h | .void _ _, _, h | .reference _ _, _, h | .remark _, _, h => by
    simp [blocks] at h
  | .element tag attributes content, b, h => by
    rw [write_element]
    exact List.infix_append_of_infix_right (List.infix_append_of_infix_left
      (infix_writeAll_of_mem_blocksAll h))
  | .block name attributes content, b, h => by
    rcases List.mem_cons.1 h with rfl | hin
    · exact List.infix_refl _
    · have hcontent := infix_writeAll_of_mem_blocksAll hin
      rw [write_block]
      refine List.infix_append_of_infix_right (List.infix_append_of_infix_right
        (List.infix_append_of_infix_right ?_))
      exact List.infix_cons (List.infix_append_of_infix_left hcontent)

theorem infix_writeAll_of_mem_blocksAll :
    ∀ {pieces : List Markup} {b : Block}, b ∈ blocksAll pieces → write b.piece <:+: writeAll pieces
  | [], _, h => by simp [blocksAll] at h
  | piece :: rest, b, h => by
    rw [writeAll_cons]
    rcases List.mem_append.1 h with hfirst | hrest
    · exact List.infix_append_of_infix_left (infix_write_of_mem_blocks hfirst)
    · exact List.infix_append_of_infix_right (infix_writeAll_of_mem_blocksAll hrest)

end

end Markup

end BlockTheme
