import BlockTheme.Convert.Batch
import BlockTheme.Proofs.Files.Growth
import BlockTheme.Proofs.Text.Slugs
import Mathlib.Data.List.Nodup

/-!
# Where the files of themes stand

The files of a theme stand below the directory of its slug, under seven names at most. So two files
of two themes share a place exactly if the slugs and the names are the same
(`Bundle.Made.eq_of_destination_eq`): nothing but the slug keeps the themes of a directory apart.
-/

namespace BlockTheme

/-! ## Slugs -/

/-- A document has a slug, whatever its title is. Where nothing of the title is left, there is a
fixed name, which is a slug as well. -/
theorem Document.isSlug_slug (document : Document) : Text.IsSlug document.slug.toList := by
  by_cases hslug : (Text.slugOf document.metadata.title).isEmpty
  · have hdefault : document.slug = Theme.defaultSlug := by
      simp only [Document.slug, hslug, if_true]
    rw [hdefault]
    exact ⟨["ai".toList, "theme".toList], by decide, by decide, by decide⟩
  · have htitle : document.slug = Text.slugOf document.metadata.title := by
      simp only [Document.slug, hslug, if_false, Bool.false_eq_true]
    rw [htitle, Text.slugOf, String.toList_ofList]
    refine (Text.slug_eq_nil_or_isSlug _).resolve_left fun hnone => hslug ?_
    rw [Text.slugOf, hnone]
    rfl

/-- The slug of a document has letters, digits and hyphens, and at least one of them. -/
theorem Document.mem_slug (document : Document) :
    document.slug ≠ "" ∧ ∀ c ∈ document.slug.toList, Text.isSlugChar c = true ∨ c = '-' :=
  ⟨fun hempty => document.isSlug_slug.ne_nil (by rw [hempty]; rfl),
    fun _ => document.isSlug_slug.of_mem⟩

/-- A slug is one name, and not one that leads upwards: it has neither strokes nor dots, so that a
path with the slug appended goes down by one directory. -/
theorem Document.path_slug (document : Document) :
    Path.ofText document.slug = ⟨0, [document.slug]⟩ ∧ document.slug ≠ ".." := by
  obtain ⟨hempty, hchars⟩ := document.mem_slug
  have hslash : '/' ∉ document.slug.toList := fun h => absurd (hchars _ h) (by decide)
  have hpoint : '.' ∉ document.slug.toList := fun h => absurd (hchars _ h) (by decide)
  have hfront : document.slug.toList.takeWhile (· == '/') = [] := by
    cases hslug : document.slug.toList with
    | nil => rfl
    | cons first rest =>
      have hfirst : first ≠ '/' := by
        rintro rfl
        exact hslash (by simp [hslug])
      simp [hfirst]
  have hone : document.slug ≠ "." := fun h => hpoint (by simp [h])
  refine ⟨?_, fun h => hpoint (by simp [h])⟩
  rw [Path.ofText, Path.partsOf, Text.splitAt_of_not_mem hslash, hfront]
  simp [hempty, hone]

/-! ## Names -/

namespace Bundle

/-- The names that the files of a theme can have. -/
def names : List String :=
  ["style.css", "theme.json", "functions.php", "assets/css/custom.css", "templates/index.html",
    "parts/header.html", "parts/footer.html"]

/-- A theme has each file once. -/
theorem names_sublist (document : Document) (css : Option String) :
    ((ofDocument document css).files.map Prod.fst).Sublist names := by
  unfold ofDocument filesOf
  rcases document.templates with ⟨index, _ | header, _ | footer⟩ <;> simp [names]

theorem nodup_names (document : Document) (css : Option String) :
    ((ofDocument document css).files.map Prod.fst).Nodup :=
  (names_sublist document css).nodup (by decide)

/-- A name leads downwards, and its parts tell it from the other names. -/
theorem parts_names :
    (∀ name ∈ names, (Path.ofText name).isAbsolute = false ∧ ".." ∉ (Path.ofText name).parts)
      ∧ ∀ name ∈ names, ∀ other ∈ names,
        (Path.ofText name).parts = (Path.ofText other).parts → name = other := by
  decide +kernel

/-- A theme that a document was made into. -/
def Made (bundle : Bundle) : Prop := ∃ document css, bundle = ofDocument document css

variable {bundle theme : Bundle} {name name' text text' : String}

theorem Made.mem_names (hmade : bundle.Made) (h : (name, text) ∈ bundle.files) : name ∈ names := by
  obtain ⟨document, css, rfl⟩ := hmade
  exact (names_sublist document css).subset (List.mem_map_of_mem h)

/-- A theme has one text under a name. -/
theorem Made.text_unique (hmade : bundle.Made) (h : (name, text) ∈ bundle.files)
    (h' : (name, text') ∈ bundle.files) : text = text' := by
  obtain ⟨document, css, rfl⟩ := hmade
  exact congrArg Prod.snd (List.inj_on_of_nodup_map (nodup_names document css) h h' rfl)

/-! ## Places -/

/-- The path of a file of a theme. -/
def target (out : Path) (bundle : Bundle) (name : String) : Path :=
  (Convert.themeDirectory out bundle).join (Path.ofText name)

/-- Every file is written below the directory of the theme. -/
theorem mem_writes_iff {out path : Path} {bundle : Bundle} {text : String} :
    (path, text) ∈ Convert.writes out bundle
      ↔ ∃ name, (name, text) ∈ bundle.files ∧ path = target out bundle name := by
  simp [Convert.writes, target, eq_comm]

/-- The slug is one name, and leads to no other directory. -/
theorem Made.path_slug (hmade : bundle.Made) :
    Path.ofText bundle.slug = ⟨0, [bundle.slug]⟩ ∧ bundle.slug ≠ ".." := by
  obtain ⟨document, css, rfl⟩ := hmade
  have hslug : (ofDocument document css).slug = document.slug := by rw [ofDocument]
  rw [hslug]
  exact document.path_slug

/-- The directory of a theme is right below that of the output, as the slug is one name. -/
theorem Made.themeDirectory_eq (hmade : bundle.Made) (out : Path) :
    Convert.themeDirectory out bundle = { out with parts := out.parts ++ [bundle.slug] } := by
  rw [Convert.themeDirectory, Path.join, hmade.path_slug.1]
  rfl

theorem Made.target_eq (hmade : bundle.Made) (out : Path) (h : name ∈ names) :
    target out bundle name
      = { out with parts := out.parts ++ bundle.slug :: (Path.ofText name).parts } := by
  obtain ⟨hrelative, -⟩ := parts_names.1 name h
  rw [target, hmade.themeDirectory_eq, Path.join, hrelative, if_neg Bool.false_ne_true,
    List.append_assoc, List.singleton_append]

theorem Made.destination_target (hmade : bundle.Made) (files : Files) (out : Path)
    (h : name ∈ names) :
    files.destination (target out bundle name)
      = files.destination out ++ bundle.slug :: (Path.ofText name).parts := by
  have hdown : ".." ∉ bundle.slug :: (Path.ofText name).parts := by
    rw [List.mem_cons, not_or]
    exact ⟨Ne.symm hmade.path_slug.2, (parts_names.1 name h).2⟩
  rw [hmade.target_eq out h, Files.destination, List.foldl_append, Files.foldl_follow hdown]
  rfl

/-- **Only the slug keeps themes apart.** Files of two themes that stand at one place have the same
slug and the same name. -/
theorem Made.eq_of_destination_eq (hmade : bundle.Made) (hmade' : theme.Made) (files : Files)
    (out : Path) (h : (name, text) ∈ bundle.files) (h' : (name', text') ∈ theme.files)
    (hplace : files.destination (target out bundle name)
      = files.destination (target out theme name')) :
    bundle.slug = theme.slug ∧ name = name' := by
  rw [hmade.destination_target files out (hmade.mem_names h),
    hmade'.destination_target files out (hmade'.mem_names h')] at hplace
  obtain ⟨hslug, hparts⟩ := List.cons.inj (List.append_cancel_left hplace)
  exact ⟨hslug, parts_names.2 name (hmade.mem_names h) name' (hmade'.mem_names h') hparts⟩

end Bundle

end BlockTheme
