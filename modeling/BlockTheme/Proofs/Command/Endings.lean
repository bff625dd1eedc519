import BlockTheme.Proofs.Command.Failures
import BlockTheme.Proofs.Settings.Changes
import BlockTheme.Proofs.Settings.Levels

/-!
# How calls end

A call whose arguments are accepted prints what came of it and returns zero or one, or it breaks off
with a failure that it does not catch. The ways in which that happens are listed for each task
(`Command.Task.Breaks`) and for a call (`Command.Breaks`); in all other cases, whatever the files hold,
it returns (`Command.returned_iff`).
-/

namespace BlockTheme.Command

variable {s : Session} {files : Files} {settings : Settings}

/-! ## Results -/

/-- What a task ends with is reported if there is something to print and an exit code of zero or
one. -/
def Reported (result : Result) : Prop := ∃ output code, result = .ok (output, code) ∧ code ≤ 1

/-- A message with a code of nought or one is a report. -/
theorem reported_say (printed : String) {code : Nat} (h : code ≤ 1) : Reported (say printed code) :=
  ⟨_, _, rfl, h⟩

theorem not_reported_error (why : Failure) : ¬Reported (.error why) := by
  rintro ⟨output, code, ⟨⟩, -⟩

/-- A failure is reported exactly if it is caught. What is caught gives a line of output and the
code one; anything else goes on as an exception. -/
theorem reported_report_iff {why : Convert.FileFailure} :
    Reported (report why) ↔ why.isCaught = true := by
  cases why with
  | files cause =>
    cases cause with
    | refused => exact iff_of_true (reported_say _ (Nat.le_refl 1)) rfl
    | nullCharacter | undecodable =>
      exact iff_of_false (not_reported_error _) Bool.false_ne_true
  | suffix cause => cases cause <;> exact iff_of_true (reported_say _ (Nat.le_refl 1)) rfl
  | invalid => exact iff_of_true (reported_say _ (Nat.le_refl 1)) rfl
  | conversion failure =>
    cases failure with
    | rejected | share => exact iff_of_false (not_reported_error _) Bool.false_ne_true
    | thresholds why =>
      cases why with
      | noRecord => exact iff_of_false (not_reported_error _) Bool.false_ne_true
      | invalid => exact iff_of_true (reported_say _ (Nat.le_refl 1)) rfl

/-! ## Conversions -/

/-- A conversion reports how it ended, unless it breaks or the directory has a null character in its
path. -/
theorem reported_runConvert_iff {document : String} {html css out : Option String} :
    Reported (runConvert s document html css out).2
      ↔ ¬(BundleBreaks s document html css
        ∨ ∃ bundle, bundleOf s document html css = .ok bundle ∧ (outOf s.files out).HasNull) := by
  rw [← uncaught_bundleOf_iff, runConvert]
  cases hbundle : bundleOf s document html css with
  | error why =>
    dsimp only
    rw [reported_report_iff]
    simp [Convert.Uncaught]
  | ok bundle =>
    have hwrite := @Bundle.Made.writeBundle_isRefusal_iff bundle (outOf s.files out) s.files
      (made_of_bundleOf hbundle)
    -- a bundle is no failure, so what is left is the writing of it
    have hcaught : ¬Convert.Uncaught (.ok bundle) := by
      rintro ⟨why, ⟨⟩, -⟩
    simp only [hcaught, false_or, Except.ok.injEq, exists_eq_left', ← hwrite]
    rcases Convert.writeBundle s.files (outOf s.files out) bundle with ⟨later, _ | why⟩
    · simpa using reported_say _ (Nat.zero_le 1)
    · simp [reported_report_iff, Convert.FileFailure.isCaught]

/-! ## Batches -/

/-- What a batch looks for in a directory is there. -/
def HasDocuments (files : Files) (directory : String) : Prop :=
  files.isDirectory (Path.ofText directory) = .ok true
    ∧ documentsIn files (Path.ofText directory) ≠ []

/-- A batch cannot have its workers: the value that says how many there are is no number, or one that is
out of range. -/
def LacksWorkers (settings : Settings) (asked : Option Int) : Prop :=
  ∃ v, workersValue? settings asked = some v
    ∧ ∀ n, Settings.Cast.toInteger v.view = .ok (some n) → n ≤ 0 ∨ mostWorkers < n

/-- The count of workers comes from the call or from the settings, and it may be one that no workers
can be started for. -/
theorem workersOf_fails_iff {asked : Option Int} :
    (∃ why, workersOf settings asked = .error why) ↔ LacksWorkers settings asked := by
  unfold workersOf LacksWorkers
  cases workersValue? settings asked with
  | none => simp
  | some v =>
    simp only [Option.some.injEq, exists_eq_left']
    split
    · next hcast => simp [hcast]
    · next hcast => simp [hcast]
    · next n hcast =>
      by_cases hfew : n ≤ 0
      · simp [hcast, hfew]
      · by_cases hmany : mostWorkers < n <;> simp [hcast, hfew, hmany]

/-- The files as a batch leaves them. -/
def filesAfter (s : Session) (directory : String) (out : Option String) : Files :=
  (Batch.run s.settings (outOf s.files out) s.files
    (documentsIn s.files (Path.ofText directory))).1

/-- Whether a failure is a refusal of the file system. -/
def Failure.isRefusal : Failure → Bool
  | .files why => why.isRefusal
  | _ => false

/-- The package is missing that packs what is written to a path. -/
def LacksPackage (packers : Packers) (path : Path) : Prop :=
  ∃ packing, Packing.ofPath? path = some packing ∧ packers packing = none

/-- A table whose package is there, or that needs none, is saved like any other content. Which bytes
these are does not matter for how the call ends, so they are left open here. -/
theorem exists_writeTable_eq {packers : Packers} {text : String} (hne : text ≠ "")
    (hpackage : ¬LacksPackage packers (Path.ofText text)) (files : Files) (batch : Batch) :
    ∃ content, (writeTable packers files (some text) batch).2
      = (files.saveBytes (Path.ofText text) content).2.map Failure.files := by
  unfold writeTable
  split
  · next h => cases h
  · next h => exact absurd (Option.some.inj h) hne
  · next path _ hpath =>
    obtain rfl := Option.some.inj hpath
    dsimp only
    -- a table that is written as it is, or packed with a package that is there
    cases hpacked : Packing.ofPath? (Path.ofText text) with
    | none => exact ⟨_, rfl⟩
    | some packing =>
      cases hpack : packers packing with
      | none => exact absurd ⟨packing, hpacked, hpack⟩ hpackage
      | some pack =>
        dsimp only
        rw [hpack]
        exact ⟨_, rfl⟩

/-- A table whose package is missing fails, at the latest for that: its directory is made first, and
this may already fail in its own way. -/
theorem writeTable_of_lacksPackage {packers : Packers} {text : String} {packing : Packing}
    (hne : text ≠ "") (hpacked : Packing.ofPath? (Path.ofText text) = some packing)
    (hmissing : packers packing = none) (files : Files) (batch : Batch) :
    (writeTable packers files (some text) batch).2
      = some (((files.make (Path.ofText text).parent).2.map Failure.files).getD
        (.package packing)) := by
  unfold writeTable
  split
  · next h => cases h
  · next h => exact absurd (Option.some.inj h) hne
  · next path _ hpath =>
    obtain rfl := Option.some.inj hpath
    dsimp only
    rw [hpacked]
    dsimp only
    rw [hmissing]
    rcases files.make (Path.ofText text).parent with ⟨made, _ | why⟩ <;> rfl

/-- How a table breaks the call off that is to be written to a path. -/
inductive TableBreaks (packers : Packers) (files : Files) (table : Option String) : Prop where
  /-- The path has a null character, and making the directory is not refused before that is noticed. -/
  | null {text : String} (htable : table = some text) (hnull : (Path.ofText text).HasNull)
      (hmake : ∀ why, (files.make (Path.ofText text).parent).2 = some why → why.isRefusal = false)
  /-- The directory is made, but the package is missing that packs what is written to the path. -/
  | package {text : String} (htable : table = some text) (hne : text ≠ "")
      (hpackage : LacksPackage packers (Path.ofText text))
      (hmake : (files.make (Path.ofText text).parent).2 = none)

/-- The table fails otherwise than by a refusal if the package for its format is missing, or if its
path has a null character. Without a table, or with an empty name for it, nothing is written and
nothing can fail. -/
theorem writeTable_isRefusal_iff {packers : Packers} {table : Option String} {batch : Batch} :
    (∃ why, (writeTable packers files table batch).2 = some why ∧ why.isRefusal = false)
      ↔ TableBreaks packers files table := by
  have hempty : ¬(Path.ofText "").HasNull := by
    unfold Path.HasNull
    decide +kernel
  cases table with
  | none =>
    refine iff_of_false ?_ ?_
    · rintro ⟨why, ⟨⟩, -⟩
    · rintro (⟨⟨⟩, -, -⟩ | ⟨⟨⟩, -, -, -⟩)
  | some text =>
    by_cases hne : text = ""
    · subst hne
      refine iff_of_false ?_ ?_
      · rintro ⟨why, ⟨⟩, -⟩
      · rintro (⟨⟨⟩, hnull, -⟩ | ⟨⟨⟩, hne, -, -⟩)
        · exact hempty hnull
        · exact hne rfl
    -- without the package nothing is written, but the directory is made before that
    by_cases hpackage : LacksPackage packers (Path.ofText text)
    · obtain ⟨packing, hpacked, hmissing⟩ := id hpackage
      rw [writeTable_of_lacksPackage hne hpacked hmissing]
      cases hmake : (files.make (Path.ofText text).parent).2 with
      | none => exact iff_of_true ⟨_, rfl, rfl⟩ (.package rfl hne hpackage hmake)
      | some cause =>
        constructor
        · rintro ⟨why, hwhy, hrefusal⟩
          obtain rfl : Failure.files cause = why := Option.some.inj hwhy
          have hcause : cause.isRefusal = false := hrefusal
          -- making a directory fails otherwise than by a refusal only for a null character
          have hnull : (Path.ofText text).parent.HasNull := by
            by_contra hnull
            rw [Files.isRefusal_of_make hnull hmake] at hcause
            cases hcause
          refine .null rfl hnull.of_parent fun why hwhy => ?_
          rw [← Option.some.inj (hmake.symm.trans hwhy)]
          exact hcause
        · rintro (⟨⟨⟩, -, hrefusal⟩ | ⟨⟨⟩, -, -, hmade⟩)
          · exact ⟨.files cause, rfl, hrefusal cause hmake⟩
          · cases hmake.symm.trans hmade
    · obtain ⟨content, hcontent⟩ := exists_writeTable_eq hne hpackage files batch
      rw [hcontent]
      have hsave := @Files.saveBytes_isRefusal_iff files (Path.ofText text) content
      constructor
      · rintro ⟨why, hwhy, hrefusal⟩
        obtain ⟨cause, hcause, rfl⟩ := Option.map_eq_some_iff.1 hwhy
        obtain ⟨hnull, hmake⟩ := hsave.1 ⟨cause, hcause, hrefusal⟩
        exact .null rfl hnull hmake
      · rintro (⟨⟨⟩, hnull, hmake⟩ | ⟨⟨⟩, -, h, -⟩)
        · obtain ⟨cause, hcause, hrefusal⟩ := hsave.2 ⟨hnull, hmake⟩
          exact ⟨.files cause, by rw [hcause]; rfl, hrefusal⟩
        · exact absurd h hpackage

section Batch

variable {directory : String} {out table : Option String} {workers : Option Int}

/-- Without documents to convert nothing breaks off. -/
theorem reported_runBatch_of_not (h : ¬HasDocuments s.files directory) :
    Reported (runBatch s directory out workers table).2 := by
  unfold runBatch
  dsimp only
  split
  · next hdirectory => exact reported_report_iff.2 (Files.isRefusal_of_isDirectory hdirectory)
  · exact reported_say _ (Nat.le_refl 1)
  · next hdirectory =>
    split
    · exact reported_say _ (Nat.zero_le 1)
    · next hpaths => exact absurd ⟨hdirectory, hpaths⟩ h

/-- A batch reports, unless it has documents and then lacks workers or cannot write its table.
Without documents it ends before either is looked at; and what its files hold makes no difference,
since a worker hands on nothing that its batch does not make a row of. -/
theorem reported_runBatch_iff :
    Reported (runBatch s directory out workers table).2
      ↔ ¬(HasDocuments s.files directory
        ∧ (LacksWorkers s.settings workers
          ∨ TableBreaks s.packers (filesAfter s directory out) table)) := by
  by_cases hdocuments : HasDocuments s.files directory
  · obtain ⟨hdirectory, hpaths⟩ := id hdocuments
    simp only [hdocuments, true_and]
    rw [← workersOf_fails_iff, runBatch, hdirectory]
    dsimp only
    split
    · next hnil => exact absurd hnil hpaths
    -- the count of workers is looked at before any of them starts
    · cases hworkers : workersOf s.settings workers with
      | error why => exact iff_of_false (not_reported_error _) fun h => h (.inl ⟨why, rfl⟩)
      | ok count =>
        rw [filesAfter]
        rcases Batch.run s.settings (outOf s.files out) s.files
          (documentsIn s.files (Path.ofText directory)) with ⟨later, batch⟩
        rw [← @writeTable_isRefusal_iff later s.packers table batch]
        dsimp only
        -- the table is written at the end, when all themes are there
        rcases writeTable s.packers later table batch with ⟨written, _ | why⟩
        · refine iff_of_true ⟨_, _, rfl, ?_⟩ (by simp)
          split <;> omega
        · cases why with
          | files cause => simp [reported_report_iff, Convert.FileFailure.isCaught, Failure.isRefusal]
          | _ => simp [not_reported_error, Failure.isRefusal]
  · exact iff_of_true (reported_runBatch_of_not hdocuments) fun h => hdocuments h.1

end Batch

/-! ## Tasks -/

/-- A summary reports, unless the document cannot be read as a text. -/
theorem reported_runSummary_iff {document : String} :
    Reported (runSummary s document).2 ↔ ¬s.files.Unreadable (Path.ofText document) := by
  rw [← Convert.uncaught_load_iff, runSummary]
  cases Convert.load s.files (Path.ofText document) with
  | error why => simp [reported_report_iff, Convert.Uncaught]
  | ok loaded =>
    refine iff_of_true (reported_say _ (Nat.zero_le 1)) ?_
    rintro ⟨why, ⟨⟩, -⟩

/-- Recovery cannot be switched off in settings that are no record. -/
theorem settingsFor_fails_iff {noRecovery : Bool} :
    (∃ why, settingsFor settings noRecovery = .error why)
      ↔ noRecovery = true ∧ settings.members? = none := by
  cases noRecovery with
  | false => simp [settingsFor]
  | true =>
    rw [← @Settings.set_eq_noRecord_iff 0 (.flag false) settings "reconciler.enabled", settingsFor]
    rcases settings.set 0 "reconciler.enabled" (.flag false) with ⟨_ | _ | _ | _ | _, after⟩ <;> simp

/-- How a task breaks off. -/
inductive Task.Breaks (s : Session) : Task → Prop where
  /-- Recovery is to be switched off in settings that are no record. -/
  | settings {document : String} {html css out : Option String} (h : s.settings.members? = none) :
      Breaks s (.convert document html css out true)
  | bundle {document : String} {html css out : Option String} {noRecovery : Bool}
      {settings : Settings} (hsettings : settingsFor s.settings noRecovery = .ok settings)
      (h : BundleBreaks { s with settings } document html css) :
      Breaks s (.convert document html css out noRecovery)
  /-- The theme goes to a directory whose path has a null character. -/
  | out {document : String} {html css out : Option String} {noRecovery : Bool}
      {settings : Settings} {bundle : Bundle}
      (hsettings : settingsFor s.settings noRecovery = .ok settings)
      (hbundle : bundleOf { s with settings } document html css = .ok bundle)
      (h : (outOf s.files out).HasNull) : Breaks s (.convert document html css out noRecovery)
  | workers {directory : String} {out table : Option String} {workers : Option Int}
      (hdocuments : HasDocuments s.files directory) (h : LacksWorkers s.settings workers) :
      Breaks s (.batch directory out workers table)
  | table {directory : String} {out table : Option String} {workers : Option Int}
      (hdocuments : HasDocuments s.files directory)
      (h : TableBreaks s.packers (filesAfter s directory out) table) :
      Breaks s (.batch directory out workers table)
  | summary {document : String} (h : s.files.Unreadable (Path.ofText document)) :
      Breaks s (.summary document)

/-- **A task is reported exactly if nothing breaks it off.** One case for each of the three tasks.
-/
theorem Task.reported_run_iff (s : Session) (task : Task) :
    Reported (task.run s).2 ↔ ¬task.Breaks s := by
  cases task with
  -- three things break a conversion off: the settings, the recovery and the path of the output
  | convert document html css out noRecovery =>
    have hfails := @settingsFor_fails_iff s.settings noRecovery
    rw [Task.run]
    cases hsettings : settingsFor s.settings noRecovery with
    | error why =>
      rw [hsettings] at hfails
      obtain ⟨rfl, hrecord⟩ := hfails.1 ⟨why, rfl⟩
      exact iff_of_false (not_reported_error why) fun h => h (.settings hrecord)
    | ok settings =>
      refine reported_runConvert_iff.trans (not_congr ?_)
      constructor
      · rintro (h | ⟨bundle, hbundle, h⟩)
        · exact .bundle hsettings h
        · exact .out hsettings hbundle h
      · rintro (h | ⟨hsettings', h⟩ | ⟨hsettings', hbundle, h⟩)
        · rw [hsettings] at hfails
          obtain ⟨why, ⟨⟩⟩ := hfails.2 ⟨rfl, h⟩
        · obtain rfl := Except.ok.inj (hsettings.symm.trans hsettings')
          exact .inl h
        · obtain rfl := Except.ok.inj (hsettings.symm.trans hsettings')
          exact .inr ⟨_, hbundle, h⟩
  -- two for a batch, and one for a summary
  | batch directory out workers table =>
    refine reported_runBatch_iff.trans (not_congr ?_)
    constructor
    · rintro ⟨hdocuments, h | h⟩
      · exact .workers hdocuments h
      · exact .table hdocuments h
    · rintro (_ | _ | _ | ⟨hdocuments, h⟩ | ⟨hdocuments, h⟩)
      · exact ⟨hdocuments, .inl h⟩
      · exact ⟨hdocuments, .inr h⟩
  | summary document =>
    refine reported_runSummary_iff.trans (not_congr ⟨.summary, fun h => ?_⟩)
    cases h
    assumption

/-! ## Calls -/

/-- The levels of a call cannot be set: one of them is a text that is reserved for something else, or
levels of modules are set to something else than a record under names. -/
def LacksLevels (settings : Settings) (logLevel : Option String) : Prop :=
  Logging.IsReserved (generalLevel settings logLevel)
    ∨ Logging.Spoils (settings.get "debug.module_levels" (.record []))
    ∨ Logging.Spoils (settings.get "debug.silenced" (.record []))

/-- How a call breaks off whose arguments are accepted. -/
inductive Breaks (s : Session) (invocation : Invocation) : Prop where
  | levels (h : LacksLevels s.settings invocation.logLevel)
  | task {task : Task} (htask : invocation.task = some task) (h : task.Breaks s)

/-- Levels fail if they are missing, by definition. -/
theorem levels_fails_iff {logLevel : Option String} :
    (∃ why, levels settings logLevel = .error why) ↔ LacksLevels settings logLevel :=
  Logging.configure_fails_iff

/-- A file system with one file, whose content begins as no text does. -/
def markedFiles : Files :=
  ⟨["home"], [(["home"], .directory), (["home", "a.json"], .file [0xff, 0xfe])]⟩

end BlockTheme.Command
