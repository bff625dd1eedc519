import BlockTheme.Files
import BlockTheme.Proofs.Text.Utf8

/-!
# Refusals of the file system

Most failures are refusals: the file system gives a reason, with the path. There are two causes of
others. A path has a null character, which no name can have (`Path.HasNull`), and a file is read whose
content is no text (`Files.Unreadable`). Without them every failure is a refusal.
-/

namespace BlockTheme

namespace Path

variable {path : Path}

/-- A part of the path has the null character, which no name has. -/
def HasNull (path : Path) : Prop := ∃ part ∈ path.parts, Char.ofNat 0 ∈ part.toList

theorem HasNull.of_parent (h : path.parent.HasNull) : path.HasNull := by
  obtain ⟨part, hpart, hnull⟩ := h
  exact ⟨part, List.dropLast_subset _ hpart, hnull⟩

theorem hasNull_iff :
    path.HasNull ↔ (path.parts.any fun part => part.toList.contains (Char.ofNat 0)) = true := by
  simp only [HasNull, List.any_eq_true, List.contains_iff_mem]

instance : Decidable path.HasNull := decidable_of_iff _ hasNull_iff.symm

end Path

namespace Files

variable {files : Files} {path : Path} {why : Failure}

/-- Whether a failure is one that the file system gives a reason for. -/
def Failure.isRefusal : Failure → Bool
  | .refused _ _ => true
  | .nullCharacter => false
  | .undecodable _ => false

/-! ## Looking up -/

/-- A path with a null character is refused by the program itself and not by the file system, before
anything is looked up. -/
theorem locate_of_hasNull (h : path.HasNull) (files : Files) :
    files.locate path = .error .nullCharacter := by
  rw [locate, if_pos (Path.hasNull_iff.1 h)]

/-- Without one the only failures on the way are refusals. -/
theorem isRefusal_of_locate (hnull : ¬path.HasNull) (h : files.locate path = .error why) :
    why.isRefusal = true := by
  rw [locate, if_neg fun hany => hnull (Path.hasNull_iff.2 hany)] at h
  split at h
  · cases h
  · cases h
    rfl

/-- Nothing is a directory at a path with a null character, and that is no failure. -/
theorem isRefusal_of_isDirectory (h : files.isDirectory path = .error why) :
    why.isRefusal = true := by
  unfold isDirectory look at h
  cases hfind : files.find path with
  | ok found =>
    rw [hfind] at h
    cases h
  | error cause =>
    rw [hfind] at h
    rcases cause with ⟨_ | _ | _ | _ | _, _⟩ | _ | _ <;> cases h
    rfl

/-! ## Reading -/

/-- What stands at the path cannot be read as a text: the path has a null character, or leads to a file
with another content than texts are written as. -/
def Unreadable (files : Files) (path : Path) : Prop :=
  path.HasNull ∨ ∃ place content, files.locate path = .ok place
    ∧ files.at? place = some (.file content) ∧ ∀ text, Text.Utf8.encode text ≠ content

/-- **Reading fails by a refusal, unless what is read is unreadable.** The two exceptions are a null
character in the path and a content that is no text. -/
theorem read_isRefusal_iff :
    (∃ why, files.read path = .error why ∧ why.isRefusal = false) ↔ files.Unreadable path := by
  by_cases hnull : path.HasNull
  · have hread : files.read path = .error .nullCharacter := by
      rw [read, find, locate_of_hasNull hnull]
      rfl
    exact iff_of_true ⟨_, hread, rfl⟩ (.inl hnull)
  -- without a null character what counts is the content of the file
  · unfold Unreadable read find
    cases hlocate : files.locate path with
    | error cause =>
      have hcause := isRefusal_of_locate hnull hlocate
      simp [hnull, Except.map, hcause]
    | ok place =>
      simp only [hnull, false_or, Except.map, Except.ok.injEq, exists_and_left, exists_eq_left']
      rcases files.at? place with _ | content | _
      · simp [Failure.isRefusal]
      · dsimp only
        cases hdecode : Text.Utf8.decode content with
        | ok text =>
          have hencode : ∃ text, Text.Utf8.encode text = content :=
            ⟨text, Text.Utf8.decode_eq_ok_iff.1 hdecode⟩
          simpa using hencode
        | error fault =>
          have hencode : ∀ text, Text.Utf8.encode text ≠ content := by
            intro text htext
            rw [Text.Utf8.decode_eq_ok_iff.2 htext] at hdecode
            cases hdecode
          simpa [Failure.isRefusal] using hencode
      · simp [Failure.isRefusal]

/-- Reading changes the ends of lines, where there is a carriage return. -/
theorem unifyLines_eq_self {s : List Char} (h : '\r' ∉ s) : unifyLines s = s := by
  induction s with
  | nil => rfl
  | cons c rest ih =>
    rw [List.mem_cons, not_or] at h
    have hfirst : c ≠ '\r' := Ne.symm h.1
    have hstep : unifyLines (c :: rest) = (if c = '\r' then '\n' else c) :: unifyLines rest := by
      rw [unifyLines]
      intro rest' hbreak
      exact absurd hbreak hfirst
    rw [hstep, if_neg hfirst, ih h.2]

/-- A text is read as it was written, if its lines end as they should. -/
theorem read_of_encode {place : Location} {text : String} (hlocate : files.locate path = .ok place)
    (hfile : files.at? place = some (.file (Text.Utf8.encode text.toList)))
    (hlines : '\r' ∉ text.toList) : files.read path = .ok text := by
  rw [read, find, hlocate, Except.map, hfile]
  dsimp only
  rw [Text.Utf8.decode_eq_ok_iff.2 rfl]
  dsimp only
  rw [unifyLines_eq_self hlines, String.ofList_toList]

/-! ## Making directories -/

/-- A directory with a null character in its path cannot be made. -/
theorem makeOne_of_hasNull (h : path.HasNull) (files : Files) :
    files.makeOne path = .error .nullCharacter := by
  rw [makeOne, locate_of_hasNull h]

theorem isRefusal_of_makeOne (hnull : ¬path.HasNull) (h : files.makeOne path = .error why) :
    why.isRefusal = true := by
  unfold makeOne at h
  split at h
  · next hlocate =>
    cases h
    exact isRefusal_of_locate hnull hlocate
  · split at h <;> cases h <;> rfl

/-- A refusal that is passed on if nothing is there stays a refusal, and so does what looking there
ends with. -/
theorem isRefusal_of_unlessThere {cause : Failure} (hcause : cause.isRefusal = true)
    (h : files.unlessThere path cause = some why) : why.isRefusal = true := by
  unfold unlessThere at h
  split at h
  · split at h
    · cases h
    · cases h
      rfl
    · next hdirectory =>
      cases h
      exact isRefusal_of_isDirectory hdirectory
  · cases h
    exact hcause

theorem makeFrom_of_hasNull (h : path.HasNull) (fuel : Nat) (files : Files) :
    files.makeFrom fuel path = (files, some .nullCharacter) := by
  cases fuel <;> rw [makeFrom, makeOne_of_hasNull h] <;> rfl

/-- By induction on how many directories above may have to be made first: their paths have no null
character either. -/
theorem isRefusal_of_makeFrom {fuel : Nat} (hnull : ¬path.HasNull)
    (h : (files.makeFrom fuel path).2 = some why) : why.isRefusal = true := by
  induction fuel generalizing path why with
  | zero =>
    rw [makeFrom] at h
    split at h
    · cases h
    · next hmade => exact isRefusal_of_unlessThere (isRefusal_of_makeOne hnull hmade) h
  | succ fuel ih =>
    rw [makeFrom] at h
    split at h
    · cases h
    · split at h
      · cases h
        rfl
      · split at h
        -- the directory above could not be made
        · next habove =>
          cases h
          exact ih (fun hparent => hnull hparent.of_parent) (congrArg Prod.snd habove)
        · split at h
          · cases h
          · next hmade => exact isRefusal_of_unlessThere (isRefusal_of_makeOne hnull hmade) h
    · next hmade => exact isRefusal_of_unlessThere (isRefusal_of_makeOne hnull hmade) h

/-- **Making a directory only fails by refusals if its path has no null character**, and always
fails otherwise. -/
theorem isRefusal_of_make (hnull : ¬path.HasNull) (h : (files.make path).2 = some why) :
    why.isRefusal = true :=
  isRefusal_of_makeFrom hnull h

theorem make_of_hasNull (h : path.HasNull) (files : Files) :
    files.make path = (files, some .nullCharacter) :=
  makeFrom_of_hasNull h _ files

/-! ## Writing -/

variable {content : List UInt8}

/-- A file with a null character in its path cannot be written. -/
theorem writeBytes_of_hasNull (h : path.HasNull) (files : Files) (content : List UInt8) :
    files.writeBytes path content = .error .nullCharacter := by
  rw [writeBytes, locate_of_hasNull h]

theorem isRefusal_of_writeBytes (hnull : ¬path.HasNull)
    (h : files.writeBytes path content = .error why) : why.isRefusal = true := by
  unfold writeBytes at h
  split at h
  · next hlocate =>
    cases h
    exact isRefusal_of_locate hnull hlocate
  · split at h <;> cases h <;> rfl

/-- Saving makes the directory and writes the file, and either may be refused. Only a null character
in the path is an error of another kind. -/
theorem isRefusal_of_saveBytes (hnull : ¬path.HasNull)
    (h : (files.saveBytes path content).2 = some why) : why.isRefusal = true := by
  unfold saveBytes at h
  split at h
  · next hmake =>
    cases h
    exact isRefusal_of_make (fun hparent => hnull hparent.of_parent) (congrArg Prod.snd hmake)
  · split at h
    · cases h
    · next hwrite =>
      cases h
      exact isRefusal_of_writeBytes hnull hwrite

/-- **Saving bytes fails otherwise than by a refusal** exactly if the path has a null character and
making its directory is not refused before. -/
theorem saveBytes_isRefusal_iff :
    (∃ why, (files.saveBytes path content).2 = some why ∧ why.isRefusal = false)
      ↔ path.HasNull ∧ ∀ why, (files.make path.parent).2 = some why → why.isRefusal = false := by
  by_cases hnull : path.HasNull
  · rw [saveBytes]
    rcases files.make path.parent with ⟨later, _ | cause⟩
    · dsimp only
      rw [writeBytes_of_hasNull hnull]
      simp [hnull, Failure.isRefusal]
    · simp [hnull]
  · refine iff_of_false ?_ fun h => hnull h.1
    rintro ⟨why, hwhy, hrefusal⟩
    rw [isRefusal_of_saveBytes hnull hwhy] at hrefusal
    cases hrefusal

/-- Saving several texts, one after the other, fails by a refusal too if no path has a null
character. -/
theorem isRefusal_of_saveAll {texts : List (Path × String)}
    (hnull : ∀ saved ∈ texts, ¬saved.1.HasNull)
    (h : (files.saveAll texts).2 = some why) : why.isRefusal = true := by
  induction texts generalizing files with
  | nil => cases h
  | cons first rest ih =>
    rw [List.forall_mem_cons] at hnull
    rw [saveAll] at h
    split at h
    · next hsave =>
      cases h
      exact isRefusal_of_saveBytes hnull.1 (congrArg Prod.snd hsave)
    · exact ih hnull.2 h

end Files

end BlockTheme
