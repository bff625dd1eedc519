import BlockTheme.Command
import BlockTheme.Proofs.Convert.Reports
import BlockTheme.Proofs.Convert.Targets
import BlockTheme.Proofs.Files.Refusals

/-!
# Failures that are not caught

A call prints the failures that it catches: refusals of the file system and documents that are invalid.
Here stands which failures are left when a theme is made and written. Files are unreadable, recovering
class names fails otherwise than by invalid thresholds, or the directory for the theme has a null
character in its path.
-/

namespace BlockTheme

open Recovery (NothingToRecover Request Thresholds targets)

/-! ## Writing themes -/

namespace Bundle

variable {bundle : Bundle} {out : Path} {files : Files} {why : Files.Failure}

/-- No name of a theme has a null character. -/
theorem not_hasNull_names : ∀ name ∈ names, ¬(Path.ofText name).HasNull := by
  decide +kernel

theorem Made.null_not_mem_slug (hmade : bundle.Made) : Char.ofNat 0 ∉ bundle.slug.toList := by
  obtain ⟨document, css, rfl⟩ := hmade
  have hslug : (ofDocument document css).slug = document.slug := by rw [ofDocument]
  rw [hslug]
  intro hnull
  exact absurd (document.mem_slug.2 _ hnull) (by decide)

/-- Only the directory that a theme is written to brings null characters into its paths. -/
theorem Made.hasNull_themeDirectory_iff (hmade : bundle.Made) :
    (Convert.themeDirectory out bundle).HasNull ↔ out.HasNull := by
  rw [hmade.themeDirectory_eq]
  simp only [Path.HasNull, List.mem_append, List.mem_singleton, or_and_right, exists_or,
    exists_eq_left, hmade.null_not_mem_slug, or_false]

/-- No path that a bundle is written to has a null character, if the directory for the output has
none: the slug and the names of files have none either. -/
theorem Made.not_hasNull_writes (hmade : bundle.Made) (hout : ¬out.HasNull) :
    ∀ saved ∈ Convert.writes out bundle, ¬saved.1.HasNull := by
  rintro ⟨path, text⟩ hsaved
  obtain ⟨name, hname, rfl⟩ := mem_writes_iff.1 hsaved
  have hin := hmade.mem_names hname
  rw [hmade.target_eq out hin]
  rintro ⟨part, hpart, hnull⟩
  rcases List.mem_append.1 hpart with hpart | hpart
  · exact hout ⟨part, hpart, hnull⟩
  · rcases List.mem_cons.1 hpart with rfl | hpart
    · exact hmade.null_not_mem_slug hnull
    · exact not_hasNull_names name hin ⟨part, hpart, hnull⟩

/-- **Writing a theme fails otherwise than by a refusal** exactly if the directory that it is written
to has a null character in its path. -/
theorem Made.writeBundle_isRefusal_iff (hmade : bundle.Made) :
    (∃ why, (Convert.writeBundle files out bundle).2 = some why ∧ why.isRefusal = false)
      ↔ out.HasNull := by
  -- a path with a null character is refused at the first call already
  by_cases hout : out.HasNull
  · rw [Convert.writeBundle, Files.make_of_hasNull (hmade.hasNull_themeDirectory_iff.2 hout)]
    exact iff_of_true ⟨_, rfl, rfl⟩ hout
  · refine iff_of_false ?_ hout
    rintro ⟨why, hwhy, hrefusal⟩
    -- neither the slug nor a name of the bundle has that character
    have hrefused : why.isRefusal = true := by
      unfold Convert.writeBundle at hwhy
      split at hwhy
      · next hmake =>
        cases hwhy
        exact Files.isRefusal_of_make (fun h => hout (hmade.hasNull_themeDirectory_iff.1 h))
          (congrArg Prod.snd hmake)
      · exact Files.isRefusal_of_saveAll (hmade.not_hasNull_writes hout) hwhy
    rw [hrefused] at hrefusal
    cases hrefusal

end Bundle

namespace Convert

variable {settings : Settings} {document : Document} {html css : Option String}

/-! ## Failures that are caught -/

/-- Whether a call prints a failure and goes on to its end. -/
def FileFailure.isCaught : FileFailure → Bool
  | .files why => why.isRefusal
  | .suffix _ => true
  | .invalid _ => true
  | .conversion (.thresholds (.invalid _)) => true
  | .conversion _ => false

/-- What a worker hands on is not caught by a call either. -/
theorem isCaught_of_not_isReported {why : FileFailure} (h : why.isReported = false) :
    why.isCaught = false := by
  cases why with
  | files | suffix | invalid => cases h
  | conversion failure =>
    cases failure with
    | rejected | share => rfl
    | thresholds why =>
      cases why with
      | noRecord => rfl
      | invalid => cases h

/-- What was tried fails in a way that is not caught. -/
def Uncaught {α : Type} (tried : Except FileFailure α) : Prop :=
  ∃ why, tried = .error why ∧ why.isCaught = false

/-- Of two steps the first one fails uncaught, or it succeeds and the second one does. -/
theorem uncaught_bind_iff {α β : Type} {first : Except FileFailure α}
    {rest : α → Except FileFailure β} :
    Uncaught (first >>= rest) ↔ Uncaught first ∨ ∃ a, first = .ok a ∧ Uncaught (rest a) := by
  cases first with
  | error why => simp [Uncaught, bind, Except.bind]
  | ok a => simp [Uncaught, bind, Except.bind]

theorem exists_of_bind_eq_ok {α β : Type} {first : Except FileFailure α}
    {rest : α → Except FileFailure β} {b : β} (h : (first >>= rest) = .ok b) :
    ∃ a, first = .ok a ∧ rest a = .ok b := by
  cases first with
  | error why => cases h
  | ok a => exact ⟨a, rfl, h⟩

/-! ## Failures of conversions -/

/-- How recovering class names breaks a call off: as it breaks a worker, or in one of the two ways that
a worker reports, which a call does not catch. -/
inductive Interrupts (settings : Settings) (document : Document) (markup : String) : Prop where
  | breaks (hbreaks : Breaks settings document markup)
  /-- A reference in the markup has a number with so many digits. -/
  | number {digits : Nat} (hrejected : Html.parse markup = .error (.longNumber digits))
  /-- The markup is read, and the first request that cannot be counted shares a part of its keys that
  is no number. -/
  | share {trees : List Html} {limits : Thresholds} (hparsed : Html.parse markup = .ok trees)
      (hlimits : settings.thresholds = .ok limits)
      (hcount : (targets document).findSome? (Request.uncounted? limits) = some .notANumber)

/-- What interrupts a conversion is a failure of the recovery that is not caught. This is more than
what breaks a batch (`breaks_iff`): a number that is too long and a share that is no number are
reported by a worker, but not by the handlers of a single conversion. -/
theorem interrupts_iff {markup : String} :
    Interrupts settings document markup
      ↔ ∃ failure, Fails settings.thresholds document markup failure
        ∧ (FileFailure.conversion failure).isCaught = false := by
  constructor
  · rintro (hbreaks | hrejected | ⟨hparsed, hlimits, hcount⟩)
    · obtain ⟨failure, hfails, hhanded⟩ := breaks_iff.1 hbreaks
      exact ⟨failure, hfails, isCaught_of_not_isReported hhanded⟩
    · exact ⟨.rejected _, .rejected hrejected, rfl⟩
    · exact ⟨.share .notANumber, .share hparsed hlimits hcount, rfl⟩
  · rintro ⟨failure, hfails, huncaught⟩
    by_cases hreported : (FileFailure.conversion failure).isReported = true
    · -- of what a row reports only such a number and such a share are not caught
      cases hfails with
      | @rejected why hrejected =>
        cases why with
        | longNumber digits => exact .number hrejected
        | noKeyword | unknownKeyword => cases hreported
      | @thresholds _ why => cases why <;> contradiction
      | @share _ _ why hparsed hlimits hcount =>
        cases why with
        | notANumber => exact .share hparsed hlimits hcount
        | infinite => cases hreported
    · exact .breaks (breaks_iff.2 ⟨failure, hfails, by simpa using hreported⟩)

/-- **A conversion fails in a way that is not caught** exactly if class names are to be recovered, there
is something to recover them from, and the recovery is interrupted. -/
theorem uncaught_convert_iff :
    Uncaught (match convert settings document html css with
        | .ok bundle => .ok bundle
        | .error why => .error (.conversion why))
      ↔ isRecovering settings = true ∧ ¬NothingToRecover document html css
        ∧ Interrupts settings document (html.getD "") := by
  rw [interrupts_iff]
  constructor
  -- a failure comes from the recovery alone, and only if there is something to recover
  · rintro ⟨why, hwhy, huncaught⟩
    split at hwhy
    · cases hwhy
    · next failure hfailure =>
      cases hwhy
      obtain ⟨hrecovering, hsomething, hfails⟩ := convert_eq_error.1 hfailure
      exact ⟨hrecovering, hsomething, failure, hfails, huncaught⟩
  · rintro ⟨hrecovering, hsomething, failure, hfails, huncaught⟩
    rw [convert_eq_error.2 ⟨hrecovering, hsomething, hfails⟩]
    exact ⟨_, rfl, huncaught⟩

/-- A document fails to be loaded in a way that is not caught exactly if its file is unreadable. -/
theorem uncaught_load_iff {files : Files} {path : Path} :
    Uncaught (load files path) ↔ files.Unreadable path := by
  rw [← Files.read_isRefusal_iff, load]
  cases files.read path with
  | error cause => simp [Uncaught, FileFailure.isCaught]
  | ok text =>
    cases hdocument : Document.load text <;> simp [hdocument, Uncaught, FileFailure.isCaught]

end Convert

namespace Command

variable {s : Session} {files : Files} {document : String} {html css : Option String}

/-! ## Making themes -/

/-- A file that is named cannot be read as a text. -/
def UnreadableNamed (files : Files) (name : Option String) : Prop :=
  ∃ text, name = some text ∧ text ≠ "" ∧ files.Unreadable (Path.ofText text)

/-- A file that is named may be unreadable. If it is merely missing that is caught. -/
theorem uncaught_readNamed_iff {name : Option String} :
    Convert.Uncaught (readNamed files name) ↔ UnreadableNamed files name := by
  unfold UnreadableNamed readNamed Convert.Uncaught
  split
  · simp
  · simp
  · next text hempty =>
    simp only [Option.some.injEq, exists_eq_left']
    rw [← Files.read_isRefusal_iff]
    have hne : text ≠ "" := fun h => hempty h
    cases files.read (Path.ofText text) <;> simp [hne, Convert.FileFailure.isCaught]

/-- How making a theme breaks a call off. A file is only read after those before it. -/
inductive BundleBreaks (s : Session) (document : String) (html css : Option String) : Prop where
  | document (h : s.files.Unreadable (Path.ofText document))
  | html {loaded : Document} (hload : Convert.load s.files (Path.ofText document) = .ok loaded)
      (h : UnreadableNamed s.files html)
  | css {loaded : Document} {markup : Option String}
      (hload : Convert.load s.files (Path.ofText document) = .ok loaded)
      (hhtml : readNamed s.files html = .ok markup) (h : UnreadableNamed s.files css)
  | recovery {loaded : Document} {markup sheet : Option String}
      (hload : Convert.load s.files (Path.ofText document) = .ok loaded)
      (hhtml : readNamed s.files html = .ok markup) (hcss : readNamed s.files css = .ok sheet)
      (hrecovering : Convert.isRecovering s.settings = true)
      (hsomething : ¬NothingToRecover loaded markup sheet)
      (h : Convert.Interrupts s.settings loaded (markup.getD ""))

/-- The steps of a conversion one after the other: document, markup and stylesheet are read, and
then there is the recovery. -/
theorem uncaught_bundleOf_iff :
    Convert.Uncaught (bundleOf s document html css) ↔ BundleBreaks s document html css := by
  unfold bundleOf
  simp only [Convert.uncaught_bind_iff, Convert.uncaught_load_iff, uncaught_readNamed_iff]
  constructor
  · rintro (h | ⟨loaded, hload, h | ⟨markup, hhtml, h | ⟨sheet, hcss, h⟩⟩⟩)
    · exact .document h
    · exact .html hload h
    · exact .css hload hhtml h
    · obtain ⟨hrecovering, hsomething, hinterrupts⟩ := Convert.uncaught_convert_iff.1 h
      exact .recovery hload hhtml hcss hrecovering hsomething hinterrupts
  · rintro (h | ⟨hload, h⟩ | ⟨hload, hhtml, h⟩ | ⟨hload, hhtml, hcss, hrecovering, hsomething, h⟩)
    · exact .inl h
    · exact .inr ⟨_, hload, .inl h⟩
    · exact .inr ⟨_, hload, .inr ⟨_, hhtml, .inl h⟩⟩
    · exact .inr ⟨_, hload, .inr ⟨_, hhtml, .inr ⟨_, hcss,
        Convert.uncaught_convert_iff.2 ⟨hrecovering, hsomething, h⟩⟩⟩⟩

/-- What is made for a call is the theme of a document. -/
theorem made_of_bundleOf {bundle : Bundle} (h : bundleOf s document html css = .ok bundle) :
    bundle.Made := by
  obtain ⟨loaded, -, h⟩ := Convert.exists_of_bind_eq_ok h
  obtain ⟨markup, -, h⟩ := Convert.exists_of_bind_eq_ok h
  obtain ⟨sheet, -, h⟩ := Convert.exists_of_bind_eq_ok h
  split at h
  · next hconvert =>
    cases h
    obtain ⟨result, -, hbundle⟩ := Recovery.convert_eq_ok hconvert
    exact ⟨result, sheet, hbundle⟩
  · cases h

end Command

end BlockTheme
