import BlockTheme.Proofs.Files.Growth

/-!
# What saving changes

Making directories changes no file. Saving texts changes the files at the ends of their paths and no
others, even where it fails half-way (`Files.writesOnly_saveAll`). If nothing fails, every text
stands where its path leads (`Files.at?_saveAll`).
-/

namespace BlockTheme

namespace Files

variable {files middle later : Files} {place : Location} {path : Path} {text : String}
  {allowed : Location → Prop}

/-- Later files that have everything that was there, and new contents only in files at the places
that are allowed. -/
structure WritesOnly (allowed : Location → Prop) (files later : Files) : Prop where
  grows : Grows files later
  kept : ∀ {place : Location} {content : List UInt8}, later.at? place = some (.file content) →
    files.at? place = some (.file content) ∨ allowed place

namespace WritesOnly

theorem refl (files : Files) : WritesOnly allowed files files := ⟨Grows.refl files, Or.inl⟩

theorem trans (h : WritesOnly allowed files middle) (h' : WritesOnly allowed middle later) :
    WritesOnly allowed files later :=
  ⟨h.grows.trans h'.grows, fun hfile => (h'.kept hfile).elim h.kept Or.inr⟩

theorem mono {more : Location → Prop} (h : WritesOnly allowed files later)
    (hmore : ∀ place, allowed place → more place) : WritesOnly more files later :=
  ⟨h.grows, fun hfile => (h.kept hfile).imp_right (hmore _)⟩

/-- A file at a place that is not allowed stays as it is. -/
theorem at?_eq (h : WritesOnly allowed files later) {content : List UInt8}
    (hfile : files.at? place = some (.file content)) (hplace : ¬allowed place) :
    later.at? place = some (.file content) := by
  obtain ⟨new, hnew, hkind⟩ := h.grows.stays hfile
  cases new with
  | directory => cases hkind
  | file content' =>
    rcases h.kept hnew with hold | hallowed
    · rwa [hnew, ← hold]
    · exact absurd hallowed hplace

end WritesOnly

/-! ## Directories -/

theorem writesOnly_makeOne (h : files.makeOne path = .ok later) :
    WritesOnly allowed files later := by
  refine ⟨Grows.makeOne h, fun {place content} hfile => Or.inl ?_⟩
  obtain ⟨made, hnone, rfl⟩ := makeOne_eq_ok h
  have hmade : files.at? made ≠ some .directory := by simp [hnone]
  rw [at?_put files (ne_nil_of_at?_ne hmade)] at hfile
  split at hfile
  · cases hfile
  · exact hfile

/-- Making a directory with those above it writes no file. By induction on how many are missing:
each level makes the one above first and then tries again. -/
theorem writesOnly_makeFrom (fuel : Nat) (files : Files) (path : Path) :
    WritesOnly allowed files (files.makeFrom fuel path).1 := by
  induction fuel generalizing path with
  | zero =>
    rw [makeFrom]
    split
    · next hmade => exact writesOnly_makeOne hmade
    · exact WritesOnly.refl files
  | succ fuel ih =>
    rw [makeFrom]
    split
    · next hmade => exact writesOnly_makeOne hmade
    · split
      · exact WritesOnly.refl files
      -- the directories above are made first, and then this one is tried again
      · have habove := ih path.parent
        split
        · next hfailed =>
          rw [hfailed] at habove
          exact habove
        · next hparent =>
          rw [hparent] at habove
          split
          · next hmade => exact habove.trans (writesOnly_makeOne hmade)
          · exact habove
    · exact WritesOnly.refl files

/-- **Making directories changes no file.** Neither the one that is asked for nor those above it. -/
theorem writesOnly_make (allowed : Location → Prop) (files : Files) (path : Path) :
    WritesOnly allowed files (files.make path).1 :=
  writesOnly_makeFrom _ files path

/-! ## Texts -/

theorem writesOnly_write (h : files.write path text = .ok later) :
    WritesOnly (· = files.destination path) files later := by
  obtain ⟨written, hlocate, hfile, -, rfl⟩ := write_eq_ok_iff.1 h
  refine ⟨Grows.putFile hfile _, fun {place content} hcontent => ?_⟩
  rw [at?_put files (ne_nil_of_at?_ne hfile)] at hcontent
  split at hcontent
  · next hplace => exact Or.inr (hplace.trans (locate_eq_ok hlocate))
  · exact Or.inl hcontent

theorem at?_write (h : files.write path text = .ok later) :
    later.at? (files.destination path) = some (.file (Text.Utf8.encode text.toList)) := by
  obtain ⟨written, hlocate, hfile, -, rfl⟩ := write_eq_ok_iff.1 h
  rw [← locate_eq_ok hlocate, at?_put files (ne_nil_of_at?_ne hfile), if_pos rfl]

/-- Saving a text changes the file at the end of its path. The directories that are made on the way
are new, and stand above it. -/
theorem writesOnly_save (files : Files) (path : Path) (text : String) :
    WritesOnly (· = files.destination path) files (files.save path text).1 := by
  have hmake := writesOnly_make (· = files.destination path) files path.parent
  rw [save_eq]
  split
  · next hfailed =>
    rw [hfailed] at hmake
    exact hmake
  · next made hmade =>
    rw [hmade] at hmake
    split
    · next hwrite =>
      have hwritten := writesOnly_write hwrite
      rw [hmake.grows.destination] at hwritten
      exact hmake.trans hwritten
    · exact hmake

/-- A text that was saved stands where its path leads, also if the directory had to be made before.
-/
theorem at?_save (h : files.save path text = (later, none)) :
    later.at? (files.destination path) = some (.file (Text.Utf8.encode text.toList)) := by
  have hmake := writesOnly_make (fun _ => False) files path.parent
  rw [save_eq] at h
  split at h
  · cases h
  · next made hmade =>
    rw [hmade] at hmake
    split at h
    · next hwrite =>
      obtain ⟨rfl, -⟩ := Prod.mk.inj h
      rw [← hmake.grows.destination]
      exact at?_write hwrite
    · cases h

/-- The places that paths lead to. -/
def Destined (files : Files) (texts : List (Path × String)) (place : Location) : Prop :=
  ∃ saved ∈ texts, place = files.destination saved.1

/-- **Saving texts changes the files at the ends of their paths and no others**, whether all of them
are saved or not. -/
theorem writesOnly_saveAll (files : Files) (texts : List (Path × String)) :
    WritesOnly (files.Destined texts) files (files.saveAll texts).1 := by
  -- on the texts: where the later ones go is not changed by what was saved already
  induction texts generalizing files with
  | nil => exact WritesOnly.refl files
  | cons first rest ih =>
    obtain ⟨path, text⟩ := first
    have hsave : WritesOnly (files.Destined ((path, text) :: rest)) files
        (files.save path text).1 := (writesOnly_save files path text).mono
      fun _ hplace => ⟨_, List.mem_cons_self, hplace⟩
    rw [saveAll]
    split
    · next hfailed =>
      rw [hfailed] at hsave
      exact hsave
    · next saved hsaved =>
      rw [hsaved] at hsave
      refine hsave.trans ((ih saved).mono ?_)
      rintro _ ⟨other, hother, rfl⟩
      exact ⟨other, List.mem_cons_of_mem _ hother, hsave.grows.destination other.1⟩

/-- **If nothing fails, every text stands where its path leads**, as long as no two paths lead to
one place. By induction on the texts: those that are saved later are saved elsewhere. -/
theorem at?_saveAll {texts : List (Path × String)} (h : files.saveAll texts = (later, none))
    (hnodup : (texts.map fun saved => files.destination saved.1).Nodup)
    (hsaved : (path, text) ∈ texts) :
    later.at? (files.destination path) = some (.file (Text.Utf8.encode text.toList)) := by
  induction texts generalizing files with
  | nil => cases hsaved
  | cons first rest ih =>
    obtain ⟨path', text'⟩ := first
    rw [List.map_cons, List.nodup_cons] at hnodup
    have hfirst := writesOnly_save files path' text'
    rw [saveAll] at h
    split at h
    · cases h
    · next middle hmiddle =>
      rw [hmiddle] at hfirst
      -- directories may be made on the way, and a path leads where it led before
      have hplaces : ∀ p, middle.destination p = files.destination p := hfirst.grows.destination
      have hrest := writesOnly_saveAll middle rest
      rw [h] at hrest
      rcases List.mem_cons.1 hsaved with heq | hmem
      -- the first is saved now, and no later one goes to its place
      · obtain ⟨rfl, rfl⟩ := Prod.mk.inj heq
        refine hrest.at?_eq (at?_save hmiddle) ?_
        rintro ⟨other, hother, hsame⟩
        rw [hplaces] at hsame
        exact hnodup.1 (List.mem_map.2 ⟨other, hother, hsame.symm⟩)
      -- any other is saved later
      · rw [← hplaces]
        refine ih h ?_ hmem
        simpa only [hplaces] using hnodup.2

end Files

end BlockTheme
