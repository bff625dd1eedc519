import BlockTheme.Proofs.Markup.Nesting
import BlockTheme.Proofs.Render.Sections
import BlockTheme.Render.Template

/-!
# Comments in templates

A scan of a template finds the delimiters that were written, nested as its blocks are, exactly if
the sections in it are inert (`Document.scan_templates_iff`): their class names, their backgrounds
and the nodes that they show. Nothing in a document is checked for this, so a document can break out
of the comments of its templates.
-/

namespace BlockTheme

/-- A document whose sections are inert. -/
def Document.Inert (document : Document) : Prop := ∀ s ∈ document.regions, s.Inert

namespace Render

theorem inert_templatePart {area : String} (h : ¬Comment.EndsIn area) :
    (templatePart area).Inert := by
  show ∀ text ∈ Fields.texts _, ¬Comment.EndsIn text
  simpa using h

theorem tidy_templatePart (area : String) : (templatePart area).Tidy := by
  have hkeys : ∀ key ∈ ["slug", "area"], ¬Comment.EndsIn key := by decide
  exact ⟨by decide, by simp [hkeys]⟩

variable (tokens : Tokens) (sections : List Section) (hasHeader hasFooter : Bool)

/-- The page is inert exactly if its sections are; header and footer are referred to only. -/
theorem inertAll_index_iff :
    Markup.InertAll (index tokens sections hasHeader hasFooter) ↔ ∀ s ∈ sections, s.Inert := by
  have hheader : (templatePart "header").Inert := inert_templatePart (by decide)
  have hfooter : (templatePart "footer").Inert := inert_templatePart (by decide)
  rw [index, Markup.inertAll_spaced, List.forall_mem_append, List.forall_mem_append,
    List.forall_mem_map]
  simp only [Section.inert_markup_iff]
  cases hasHeader <;> cases hasFooter <;> simp [hheader, hfooter]

theorem tidyAll_index : Markup.TidyAll (index tokens sections hasHeader hasFooter) := by
  have hpart : ∀ (has : Bool) (area : String),
      ∀ piece ∈ (if has then [templatePart area] else []), piece.Tidy := by
    intro has area
    cases has <;> simp [tidy_templatePart]
  rw [index, Markup.tidyAll_spaced, List.forall_mem_append, List.forall_mem_append,
    List.forall_mem_map]
  exact ⟨⟨hpart hasHeader "header", fun s _ => s.tidy_markup tokens⟩, hpart hasFooter "footer"⟩

end Render

/-- The pieces of the templates that there are, with the texts that are written for them. -/
def Templates.written (templates : Templates) : List (List Markup × String) :=
  (templates.index, Markup.allToText templates.index)
    :: (templates.header.toList ++ templates.footer.toList).map fun part => ([part], part.toText)

/-- What is written for a template is the text of its markup. -/
theorem Templates.toList_of_mem_written {templates : Templates} {template : List Markup × String}
    (h : template ∈ templates.written) : template.2.toList = Markup.writeAll template.1 := by
  rcases List.mem_cons.1 h with rfl | hpart
  · simp [Markup.allToText]
  · obtain ⟨part, -, rfl⟩ := List.mem_map.1 hpart
    simp [Markup.toText, Markup.writeAll]

namespace Document

variable (document : Document)

theorem tidyAll_templates :
    ∀ template ∈ document.templates.written, Markup.TidyAll template.1 := by
  rw [Templates.written, List.forall_mem_cons, List.forall_mem_map]
  refine ⟨Render.tidyAll_index .., fun part hpart => ⟨?_, trivial⟩⟩
  simp only [templates, List.mem_append, Option.mem_toList, Option.map_eq_some_iff] at hpart
  rcases hpart with ⟨s, -, rfl⟩ | ⟨s, -, rfl⟩
  · exact s.tidy_markup _
  · exact s.tidy_markup _

/-- The templates are inert exactly if the document is. Each section stands in one template, and
what else a template has is the program's. -/
theorem inertAll_templates_iff :
    (∀ template ∈ document.templates.written, Markup.InertAll template.1) ↔ document.Inert := by
  have hpart : ∀ region : Option Section,
      (∀ part ∈ (region.map (Section.markup document.tokens)).toList, Markup.InertAll [part])
        ↔ ∀ s ∈ region.toList, s.Inert := by
    intro region
    cases region with
    | none => simp
    | some s => simp [Markup.InertAll, Section.inert_markup_iff]
  rw [Templates.written, List.forall_mem_cons, List.forall_mem_map, List.forall_mem_append,
    Document.Inert, regions, List.forall_mem_append, List.forall_mem_append, ← hpart, ← hpart,
    ← Render.inertAll_index_iff document.tokens document.body document.header.isSome
      document.footer.isSome]
  exact ⟨fun ⟨hindex, hheader, hfooter⟩ => ⟨⟨hheader, hindex⟩, hfooter⟩,
    fun ⟨⟨hheader, hindex⟩, hfooter⟩ => ⟨hindex, hheader, hfooter⟩⟩

/-- **The comments of the templates of a document.** A scan of every template from left to right
finds the delimiters, references and remarks that were written, each up to its own end and the
blocks nested, exactly if no text of the document breaks out of them. -/
theorem scan_templates_iff :
    (∀ template ∈ document.templates.written,
        Comment.scan 0 template.2.toList = Markup.comments template.1
          ∧ Comment.Nested (Comment.scan 0 template.2.toList))
      ↔ document.Inert := by
  rw [← inertAll_templates_iff]
  refine forall₂_congr fun template hin => ?_
  have htidy := document.tidyAll_templates template hin
  rw [Templates.toList_of_mem_written hin, ← Markup.scan_writeAll_iff htidy]
  refine and_iff_left_of_imp fun hscan => ?_
  rw [hscan]
  exact Markup.nested_comments htidy

end Document

end BlockTheme
