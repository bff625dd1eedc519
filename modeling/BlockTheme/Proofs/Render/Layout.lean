import BlockTheme.Proofs.Chunks
import BlockTheme.Proofs.Render.Sections

/-!
# The children that a layout shows

A section is written as a frame around runs of its children (`Section.write_markup_iff`). The frame
comes from the section alone: it is the same for all children, so that every child stands in the
text where its run stands, and nowhere else. The runs put together are the children, except that
columns of a negative count take none of them.
-/

namespace BlockTheme

namespace Render

open Markup (write writeAll startTag endTag openingWords closingWords)

/-! ## Frames -/

/-- A text with places for runs. What stands before and after each run is the same at all places,
and between two places there is an empty line. -/
structure Frame where
  opening : List Char := []
  before : List Char := []
  after : List Char := []
  closing : List Char := []

namespace Frame

/-- The text of a frame with a run at each of its places. -/
def fill (frame : Frame) (runs : List (List Char)) : List Char :=
  frame.opening
    ++ "\n\n".toList.intercalate (runs.map fun run => frame.before ++ (run ++ frame.after))
    ++ frame.closing

/-- A frame with more text around it. -/
def within (frame : Frame) (front back : List Char) : Frame :=
  { frame with opening := front ++ frame.opening, closing := frame.closing ++ back }

/-- Text around a frame comes to stand around the filled frame. -/
theorem fill_within (frame : Frame) (front back : List Char) (runs : List (List Char)) :
    (frame.within front back).fill runs = front ++ (frame.fill runs ++ back) := by
  simp [fill, within]

/-- The empty frame with one place shows the run and nothing else. -/
theorem fill_singleton (run : List Char) : fill {} [run] = run := by
  simp [fill]

end Frame

/-- The text of a run of nodes. -/
def runText (tokens : Tokens) (nodes : List Node) : List Char :=
  "\n\n".toList.intercalate (nodes.map fun node => write (node.markup tokens))

theorem writeAll_append (a b : List Markup) : writeAll (a ++ b) = writeAll a ++ writeAll b := by
  induction a with
  | nil => rfl
  | cons piece rest ih =>
    rw [List.cons_append, Markup.writeAll_cons, Markup.writeAll_cons, ih, List.append_assoc]

/-- Pieces that are spaced out are written with an empty line between two of them. -/
theorem writeAll_spaced (pieces : List Markup) :
    writeAll (Markup.spaced pieces) = "\n\n".toList.intercalate (pieces.map write) := by
  induction pieces with
  | nil => rfl
  | cons piece rest ih =>
    cases rest with
    | nil => simp [Markup.spaced, Markup.writeAll_cons, writeAll]
    | cons next rest =>
      rw [Markup.spaced] at ih
      rw [Markup.spaced, List.intersperse_cons_cons, Markup.writeAll_cons, Markup.writeAll_cons, ih]
      simp only [Markup.write_text, List.map_cons, List.intercalate_cons_cons, List.append_assoc]

theorem writeAll_markupAll (tokens : Tokens) (nodes : List Node) :
    writeAll (Markup.spaced (Node.markupAll tokens nodes)) = runText tokens nodes := by
  have hmap : (Node.markupAll tokens nodes).map write
      = nodes.map fun node => write (node.markup tokens) := by
    induction nodes with
    | nil => rfl
    | cons node rest ih => rw [Node.markupAll, List.map_cons, List.map_cons, ih]
  rw [writeAll_spaced, hmap, runText]

/-! ## Markup around children -/

variable (tokens : Tokens)

/-- Markup that is made of children writes one frame, whatever the children are, and the runs that
they are split into. -/
def Framed (content : List Node → List Markup) (runs : List Node → List (List Node)) : Prop :=
  ∃ frame : Frame, ∀ children,
    writeAll (content children) = frame.fill ((runs children).map (runText tokens))

section Framed

variable {tokens} {content outer : List Node → List Markup} {runs : List Node → List (List Node)}

/-- Children without anything around them are one run in the empty frame. -/
theorem framed_run (tokens : Tokens) :
    Framed tokens (fun children => Markup.spaced (Node.markupAll tokens children))
      fun children => [children] :=
  ⟨{}, fun children => by
    rw [writeAll_markupAll, List.map_singleton, Frame.fill_singleton]⟩

/-- What is put around framed markup belongs to the frame. -/
theorem Framed.wrap (h : Framed tokens content runs) (front back : List Char)
    (houter : ∀ children, writeAll (outer children) = front ++ (writeAll (content children) ++ back)) :
    Framed tokens outer runs := by
  obtain ⟨frame, hframe⟩ := h
  refine ⟨frame.within front back, fun children => ?_⟩
  rw [houter, hframe, Frame.fill_within]

/-- Pieces in front of framed markup and behind it belong to the frame. -/
theorem Framed.pieces (h : Framed tokens content runs) (front back : List Markup) :
    Framed tokens (fun children => front ++ content children ++ back) runs :=
  h.wrap (writeAll front) (writeAll back) fun children => by
    rw [writeAll_append, writeAll_append, List.append_assoc]

theorem Framed.element (h : Framed tokens content runs) (tag : String)
    (attributes : List (String × String)) :
    Framed tokens (fun children => [.element tag attributes (content children)]) runs :=
  h.wrap (startTag tag attributes ['>']) (endTag tag) fun children => by
    rw [Markup.writeAll_cons, Markup.write_element, writeAll, List.append_nil]

theorem Framed.block (h : Framed tokens content runs) (name : String) (attributes : Fields) :
    Framed tokens (fun children => [.block name attributes (content children)]) runs :=
  h.wrap (Comment.opening ++ (openingWords name attributes ++ (Comment.closing ++ ['\n'])))
    ('\n' :: (Comment.opening ++ (closingWords name ++ Comment.closing))) fun children => by
      rw [Markup.writeAll_cons, Markup.write_block, writeAll, List.append_nil]
      simp

end Framed

/-! ## Layouts -/

/-- Every column has the same text around its run. -/
theorem exists_write_column :
    ∃ before after, ∀ nodes,
      write (column tokens nodes) = before ++ (runText tokens nodes ++ after) := by
  obtain ⟨frame, hframe⟩ :=
    ((framed_run tokens).pieces [.newline] [.newline]).element "div"
      [("class", "wp-block-column is-layout-flow")] |>.block "column" []
  refine ⟨frame.opening ++ frame.before, frame.after ++ frame.closing, fun nodes => ?_⟩
  have hcolumn := hframe nodes
  rw [Markup.writeAll_cons, writeAll, List.append_nil] at hcolumn
  rw [column, hcolumn]
  simp [Frame.fill]

variable (s : Section)

/-- Columns have one run each, all of them in elements that look the same. -/
theorem framed_columns (style : Style) :
    Framed tokens (fun children => [columnsBlock tokens { s with children } style])
      fun children => columnsOf { s with children } := by
  obtain ⟨before, after, hcolumn⟩ := exists_write_column tokens
  have hcolumns : Framed tokens
      (fun children => Markup.spaced ((columnsOf { s with children }).map (column tokens)))
      fun children => columnsOf { s with children } := by
    refine ⟨{ before, after }, fun children => ?_⟩
    rw [writeAll_spaced, List.map_map, Frame.fill, List.map_map]
    simp [Function.comp_def, hcolumn]
  exact ((hcolumns.pieces [.newline] [.newline]).element "div" _).block "columns" _

end Render

/-- The runs of its children that a section shows: those of its columns, or all of them in one. -/
def Section.runs (s : Section) : List (List Node) :=
  match s.layout.kind with
  | .columns => Render.columnsOf s
  | _ => [s.children]

namespace Render

variable (tokens : Tokens) (s : Section)

/-- A layout is framed: there is a text around its runs of children that does not depend on them,
and how many runs there are is the only thing that does. -/
theorem framed_layout :
    Framed tokens (fun children => layout tokens { s with children })
      fun children => ({ s with children } : Section).runs := by
  cases hkind : s.layout.kind with
  | columns =>
    have hlayout : ∀ children, layout tokens { s with children }
        = [columnsBlock tokens { s with children } (columnsStyle s.layout.gap)] :=
      fun children => layout_columns tokens { s with children } hkind
    simp only [hlayout, Section.runs, hkind]
    exact framed_columns tokens s (columnsStyle s.layout.gap)
  | grid =>
    have hlayout : ∀ children, layout tokens { s with children }
        = [gridBlock tokens { s with children }] := by
      intro children
      rw [layout, hkind]
      rfl
    simp only [hlayout, Section.runs, hkind]
    exact (((framed_run tokens).pieces [.newline] [.newline]).element "div" _).block "group" _
  -- no markup of the layout's own
  | fullWidth | constrained =>
    simp only [layout, Section.runs, hkind]
    exact framed_run tokens

/-- The wrapper of a section comes from what the section is without its children. -/
theorem groupAppearance_children (children : List Node) :
    groupAppearance { s with children } = groupAppearance s := rfl

/-- A cover does not look at the children of its section. -/
theorem coverAppearance_children (url : String) (children : List Node) :
    coverAppearance { s with children } url = coverAppearance s url := rfl

/-- A section as a group is framed, with the runs of its layout. -/
theorem framed_sectionGroup :
    Framed tokens (fun children => [sectionGroup tokens { s with children }])
      fun children => ({ s with children } : Section).runs := by
  simp only [sectionGroup_eq, groupAppearance_children]
  exact (((framed_layout tokens s).pieces [.newline] [.newline]).element "div" _).block "group" _

theorem framed_cover (url : String) :
    Framed tokens (fun children => [cover tokens { s with children } url])
      fun children => ({ s with children } : Section).runs := by
  have hinner := ((framed_layout tokens s).pieces [.newline] [.newline]).element "div"
    [("class", "wp-block-cover__inner-container")]
  simp only [cover_eq, coverAppearance_children]
  -- the image stands in front of the layout
  exact ((hinner.pieces ((coverContent tokens s url).take 5) [.newline]).element "div" _).block
    "cover" _

/-- Every section is framed with the runs of its layout, whether it is written as a group or as a
cover. -/
theorem framed_markup :
    Framed tokens (fun children => [({ s with children } : Section).markup tokens])
      fun children => ({ s with children } : Section).runs := by
  rcases hback : s.background with _ | ⟨_ | _ | _, url⟩
  case some.image => simpa only [Section.markup, hback] using framed_cover tokens s url
  all_goals simpa only [Section.markup, hback] using framed_sectionGroup tokens s

end Render

/-- The columns of a section hold its children exactly if their count is not negative. A count of
zero counts as one that is not given. -/
theorem Section.flatten_runs_eq_children_iff (s : Section) :
    s.runs.flatten = s.children
      ↔ s.layout.kind ≠ .columns ∨ 0 ≤ s.layout.columns.getD 0 ∨ s.children = [] := by
  unfold Section.runs
  cases hkind : s.layout.kind with
  | columns =>
    have hcount : 1 ≤ (if s.layout.columns.getD 0 = 0 then Render.defaultColumns
        else s.layout.columns.getD 0) ↔ 0 ≤ s.layout.columns.getD 0 := by
      rw [Render.defaultColumns]
      split <;> omega
    simp only [Render.columnsOf, flatten_chunks_eq_self_iff, hcount, ne_eq, not_true_eq_false,
      false_or]
  | grid | fullWidth | constrained => simp

/-- **What a section shows of its children.** The text of a section is a frame that does not depend
on the children, filled with runs of them; and these runs put together are the children, each once
and in order, unless the children are to be spread over a negative number of columns. -/
theorem Section.write_markup_iff (tokens : Tokens) (s : Section) :
    ∃ frame : Render.Frame, ∀ children : List Node,
      (({ s with children } : Section).markup tokens).write
          = frame.fill (({ s with children } : Section).runs.map (Render.runText tokens))
        ∧ (({ s with children } : Section).runs.flatten = children
          ↔ s.layout.kind ≠ .columns ∨ 0 ≤ s.layout.columns.getD 0 ∨ children = []) := by
  obtain ⟨frame, hframe⟩ := Render.framed_markup tokens s
  refine ⟨frame, fun children => ⟨?_, Section.flatten_runs_eq_children_iff { s with children }⟩⟩
  have hwrite := hframe children
  rwa [Markup.writeAll_cons, Markup.writeAll, List.append_nil] at hwrite

end BlockTheme
