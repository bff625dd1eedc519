import BlockTheme.Proofs.Convert.Targets
import BlockTheme.Proofs.Files.Saving
import BlockTheme.Proofs.Recovery.Outcome

/-!
# Themes in directories of their own

A theme is written below the directory that has its slug for a name, directly below the output
directory, and no other file is touched (`Bundle.Made.confined`). Slugs see to that whatever the
title of the document is (`slugs_confine_themes`).
-/

namespace BlockTheme

namespace Bundle

variable {bundle : Bundle}

/-- Where the file of a theme belongs, if the theme has a slug. -/
def home (files : Files) (out : Path) (slug name : String) : Location :=
  files.destination out ++ slug :: (Path.ofText name).parts

/-- A theme is written below one directory, which is directly below the output directory and has a
slug for a name. -/
structure Confined (slug : String) (bundle : Bundle) (files : Files) (out : Path) : Prop where
  directory : Convert.themeDirectory out bundle = out.child slug
  place : files.destination (out.child slug) = files.destination out ++ [slug]
  /-- Where writing is broken off, the files that were written are below the directory as well. -/
  kept : ∀ {place : Location} {content : List UInt8},
    (Convert.writeBundle files out bundle).1.at? place = some (.file content) →
      files.at? place = some (.file content)
        ∨ ∃ below, below ≠ [] ∧ place = files.destination out ++ slug :: below
  written : (Convert.writeBundle files out bundle).2 = none →
    ∀ {name text : String}, (name, text) ∈ bundle.files →
      (Convert.writeBundle files out bundle).1.at? (home files out slug name)
        = some (.file (Text.Utf8.encode text.toList))

theorem parts_ne_nil : ∀ name ∈ names, (Path.ofText name).parts ≠ [] := by
  decide +kernel

/-- Different files of a theme go to different places. -/
theorem Made.nodup_destinations (hmade : bundle.Made) (files : Files) (out : Path) :
    ((Convert.writes out bundle).map fun saved => files.destination saved.1).Nodup := by
  have hnames : (bundle.files.map Prod.fst).Nodup := by
    obtain ⟨document, css, rfl⟩ := hmade
    exact nodup_names document css
  have hplaces : (Convert.writes out bundle).map (fun saved => files.destination saved.1)
      = (bundle.files.map Prod.fst).map fun name => files.destination (target out bundle name) := by
    rw [Convert.writes, List.map_map, List.map_map]
    rfl
  rw [hplaces]
  refine hnames.map_on fun name hname other hother hsame => ?_
  obtain ⟨⟨name, text⟩, hfile, rfl⟩ := List.mem_map.1 hname
  obtain ⟨⟨other, text'⟩, hfile', rfl⟩ := List.mem_map.1 hother
  exact (hmade.eq_of_destination_eq hmade files out hfile hfile' hsame).2

/-- Writing a theme changes no other files than its own, also where it is broken off. -/
theorem writesOnly_writeBundle (files : Files) (out : Path) (bundle : Bundle) :
    Files.WritesOnly (files.Destined (Convert.writes out bundle)) files
      (Convert.writeBundle files out bundle).1 := by
  have hmake := Files.writesOnly_make (files.Destined (Convert.writes out bundle)) files
    (Convert.themeDirectory out bundle)
  rw [Convert.writeBundle]
  split
  · next hfailed =>
    rw [hfailed] at hmake
    exact hmake
  · next made hmade =>
    rw [hmade] at hmake
    refine hmake.trans ((Files.writesOnly_saveAll made _).mono ?_)
    rintro _ ⟨saved, hsaved, rfl⟩
    exact ⟨saved, hsaved, hmake.grows.destination saved.1⟩

/-- If nothing fails, the files of a theme are there. -/
theorem Made.at?_writeBundle (hmade : bundle.Made) {files : Files} {out path : Path} {text : String}
    (hdone : (Convert.writeBundle files out bundle).2 = none)
    (hfile : (path, text) ∈ Convert.writes out bundle) :
    (Convert.writeBundle files out bundle).1.at? (files.destination path)
      = some (.file (Text.Utf8.encode text.toList)) := by
  have hmake := Files.writesOnly_make (fun _ => False) files (Convert.themeDirectory out bundle)
  rw [Convert.writeBundle] at hdone ⊢
  split at hdone
  · cases hdone
  · next made hmadeDirectory =>
    rw [hmadeDirectory] at hmake
    rw [← hmake.grows.destination]
    exact Files.at?_saveAll (Prod.ext rfl hdone) (hmade.nodup_destinations made out) hfile

/-- **A theme that was made of a document is confined to its directory.** Its slug is one name, and
so are the parts of the names of its files, none of which leads upwards. -/
theorem Made.confined (hmade : bundle.Made) (files : Files) (out : Path) :
    Confined bundle.slug bundle files out := by
  refine ⟨hmade.themeDirectory_eq out, ?_, fun {place content} hcontent => ?_,
    fun hdone {name text} hfile => ?_⟩
  · rw [Path.child, Files.destination, List.foldl_append,
      Files.foldl_follow (by simpa using Ne.symm hmade.path_slug.2)]
    rfl
  · refine ((writesOnly_writeBundle files out bundle).kept hcontent).imp_right ?_
    rintro ⟨⟨path, text⟩, hwrites, rfl⟩
    obtain ⟨name, hfile, rfl⟩ := mem_writes_iff.1 hwrites
    have hname := hmade.mem_names hfile
    exact ⟨_, parts_ne_nil name hname, hmade.destination_target files out hname⟩
  · rw [home, ← hmade.destination_target files out (hmade.mem_names hfile)]
    exact hmade.at?_writeBundle hdone (mem_writes_iff.2 ⟨name, hfile, rfl⟩)

end Bundle

/-- What a document converts to has the slug of the document. -/
theorem slug_eq_of_convert {settings : Settings} {document : Document} {html css : Option String}
    {bundle : Bundle} (h : convert settings document html css = .ok bundle) :
    bundle.Made ∧ bundle.slug = document.slug := by
  obtain ⟨result, hprepared, rfl⟩ := Recovery.convert_eq_ok h
  have hmetadata : result.unnamed.metadata = document.unnamed.metadata :=
    congrArg Document.metadata (Recovery.unnamed_prepared hprepared)
  have hslug : (Bundle.ofDocument result css).slug = result.slug := by rw [Bundle.ofDocument]
  refine ⟨⟨result, css, rfl⟩, hslug.trans ?_⟩
  rw [Document.unnamed, Document.unnamed] at hmetadata
  rw [Document.slug, Document.slug, hmetadata]

/-- **Slugs confine themes.** Of every title there is a slug or nothing, and making a slug of it
once more changes nothing; a document always has a slug. What the document converts to is written
below the directory of this name, directly below the output directory. -/
theorem slugs_confine_themes :
    (∀ title : String,
        (Text.slugOf title = "" ∨ Text.IsSlug (Text.slugOf title).toList)
          ∧ Text.slugOf (Text.slugOf title) = Text.slugOf title)
      ∧ ∀ document : Document, Text.IsSlug document.slug.toList
        ∧ ∀ {settings : Settings} {html css : Option String} {bundle : Bundle},
          convert settings document html css = .ok bundle →
            bundle.slug = document.slug
              ∧ ∀ (files : Files) (out : Path), bundle.Confined document.slug files out := by
  refine ⟨fun title => ⟨?_, ?_⟩, fun document => ⟨document.isSlug_slug, fun h => ?_⟩⟩
  · rw [Text.slugOf, String.toList_ofList, String.ofList_eq_empty_iff]
    exact Text.slug_eq_nil_or_isSlug _
  · rw [Text.slugOf, Text.slugOf, String.toList_ofList, Text.slug_slug]
  · obtain ⟨hmade, hslug⟩ := slug_eq_of_convert h
    exact ⟨hslug, fun files out => hslug ▸ hmade.confined files out⟩

/-- A page whose title looks like a path that leads upwards. -/
def upwardPage : Document where
  metadata := ⟨"../../Etc/passwd", none, none⟩
  tokens := { colors := ⟨"#00f", "#222", "#fff", "#111", none, none⟩ }
  header := none
  body := []
  footer := none
  stylesheet := none

/-- The theme of a page whose title leads upwards does not stand anywhere else: its slug has lost
the dots and strokes. -/
theorem slugs_confine_upwards :
    ∃ bundle, convert (.record []) upwardPage none none = .ok bundle
      ∧ bundle.slug = "etc-passwd"
      ∧ ∀ (files : Files) (out : Path), bundle.Confined "etc-passwd" files out := by
  have hprepared : Convert.prepared (.record []) upwardPage none none = .ok upwardPage := by rfl
  have hconvert : convert (.record []) upwardPage none none
      = .ok (Bundle.ofDocument upwardPage none) := by
    rw [convert, hprepared, Except.map]
  have hname : upwardPage.slug = "etc-passwd" := by decide +kernel
  obtain ⟨hslug, hconfined⟩ := (slugs_confine_themes.2 upwardPage).2 hconvert
  rw [hname] at hslug hconfined
  exact ⟨_, hconvert, hslug, hconfined⟩

end BlockTheme
