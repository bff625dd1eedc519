import BlockTheme.Proofs.Convert.Workers

/-!
# What a call does

`Call` lists all that a worker can do with one call to the file system (`call_advance`). A call takes
nothing away from the files (`Call.grows`), and a worker that has a theme keeps it (`Call.bundle?`).
-/

namespace BlockTheme.Convert

/-- From files and a stage, one call of a worker leads to later files and another stage. -/
inductive Call (out : Path) (files : Files) : Stage → Files → Stage → Prop where
  /-- The worker reads, or fails to, and has no theme yet. -/
  | read {stage new : Stage} : stage.bundle? = none → new.bundle? = none →
    Call out files stage files new
  /-- The worker reads the last text that it needs and converts the document. -/
  | convert {stage : Stage} {bundle : Bundle} : stage.bundle? = none →
    Call out files stage files (.writing bundle (actions out bundle))
  /-- The worker makes a directory or looks for one. Nothing that is there changes. -/
  | act {bundle : Bundle} {action : Action} {todo more : List Action} {later : Files} :
    files.Grows later →
    (∀ {place entry}, files.at? place = some entry → later.at? place = some entry) →
    (∀ path text, action ≠ .write path text) → (∀ path text, .write path text ∉ more) →
    Call out files (.writing bundle (action :: todo)) later (.writing bundle (more ++ todo))
  /-- The worker opens a file, which is empty then. -/
  | opens {bundle : Bundle} {path : Path} {text : String} {place : Location}
      {todo : List Action} :
    files.locate path = .ok place → files.at? place ≠ some .directory →
    Call out files (.writing bundle (.write path text :: todo)) (files.put place (.file []))
      (.filling bundle place text todo)
  | fill {bundle : Bundle} {place : Location} {text : String} {todo : List Action} :
    Call out files (.filling bundle place text todo) (files.pour place text) (.writing bundle todo)
  | finish {bundle : Bundle} : Call out files (.writing bundle []) files (.finished bundle)
  | stop {bundle : Bundle} {todo : List Action} {why : FileFailure} :
    Call out files (.writing bundle todo) files (.stopped (some bundle) why)
  | stayFinished {bundle : Bundle} : Call out files (.finished bundle) files (.finished bundle)
  | stayStopped {bundle : Option Bundle} {why : FileFailure} :
    Call out files (.stopped bundle why) files (.stopped bundle why)

variable {settings : Settings} {out path : Path} {files later : Files} {stage new : Stage}
  {bundle : Bundle}

/-! ## Actions -/

/-- An action on a directory leaves everything that is there as it is. Directories may be added,
which is why the files only grow; and what is still to be done afterwards writes no file either. -/
theorem perform_directory (files : Files) {action : Action}
    (haction : ∀ path text, action ≠ .write path text) :
    (files.Grows (action.perform files).1
        ∧ ∀ {place entry}, files.at? place = some entry →
          (action.perform files).1.at? place = some entry)
      ∧ ((∃ why, action.perform files = (files, .failed why))
        ∨ ∃ more, (action.perform files).2 = .done more ∧ ∀ path text, .write path text ∉ more) := by
  cases action with
  | make place =>
    cases hmake : files.makeOne place with
    | ok made =>
      simp only [Action.perform, hmake]
      exact ⟨⟨.makeOne hmake, Files.at?_makeOne hmake⟩, Or.inr ⟨[], rfl, by simp⟩⟩
    -- if the directory above is missing there is more to do, but still nothing to be written
    | error why =>
      simp only [Action.perform, hmake]
      refine ⟨⟨.refl files, id⟩, Or.inr ⟨_, rfl, fun _ _ => ?_⟩⟩
      split <;> simp
  | remake place =>
    cases hmake : files.makeOne place with
    | ok made =>
      simp only [Action.perform, hmake]
      exact ⟨⟨.makeOne hmake, Files.at?_makeOne hmake⟩, Or.inr ⟨[], rfl, by simp⟩⟩
    | error why =>
      simp only [Action.perform, hmake]
      exact ⟨⟨.refl files, id⟩, Or.inr ⟨_, rfl, by simp⟩⟩
  | check place why =>
    cases hthere : files.unlessThere place why with
    | some why =>
      simp only [Action.perform, hthere]
      exact ⟨⟨.refl files, id⟩, Or.inl ⟨why, rfl⟩⟩
    | none =>
      simp only [Action.perform, hthere]
      exact ⟨⟨.refl files, id⟩, Or.inr ⟨[], rfl, by simp⟩⟩
  | write place text => exact absurd rfl (haction place text)

/-- An action on a file fails or opens it. To open a file is to empty it: its text is poured in by a
later call, and between the two calls another worker may have its turn. -/
theorem perform_write (files : Files) (place : Path) (text : String) :
    (∃ why, (Action.write place text).perform files = (files, .failed why))
      ∨ ∃ location, files.locate place = .ok location ∧ files.at? location ≠ some .directory
        ∧ (Action.write place text).perform files
          = (files.put location (.file []), .opened location text) := by
  cases hlocate : files.locate place with
  | error why => exact Or.inl ⟨why, by simp only [Action.perform, hlocate]⟩
  | ok location =>
    cases hopen : files.write place "" with
    | error why => exact Or.inl ⟨why, by simp only [Action.perform, hlocate, hopen]⟩
    | ok opened =>
      have hperform : (Action.write place text).perform files
          = (opened, .opened location text) := by
        simp only [Action.perform, hlocate, hopen]
      obtain ⟨_, hplace, hfile, -, rfl⟩ := Files.write_eq_ok_iff.1 hopen
      obtain rfl := Except.ok.inj (hlocate.symm.trans hplace)
      exact Or.inr ⟨location, rfl, hfile, hperform⟩

theorem call_writing (action : Action) (todo : List Action) :
    Call out files (.writing bundle (action :: todo))
      (advance settings out path files (.writing bundle (action :: todo))).1
      (advance settings out path files (.writing bundle (action :: todo))).2 := by
  -- making and removing directories take one call, a write opens the file first
  by_cases haction : ∀ place text, action ≠ .write place text
  · obtain ⟨⟨hgrows, hkeeps⟩, ⟨why, hfailed⟩ | ⟨more, hdone, hmore⟩⟩ :=
      perform_directory files haction
    · rw [advance, hfailed]
      exact .stop
    · rw [advance]
      rcases hperform : action.perform files with ⟨made, outcome⟩
      rw [hperform] at hgrows hkeeps hdone
      obtain rfl : outcome = .done more := hdone
      exact .act hgrows hkeeps haction hmore
  · obtain ⟨place, text, rfl⟩ : ∃ place text, action = .write place text := by
      simpa using haction
    rcases perform_write files place text with
      ⟨why, hfailed⟩ | ⟨location, hlocate, hfile, hopened⟩
    · rw [advance, hfailed]
      exact .stop
    · rw [advance, hopened]
      exact .opens hlocate hfile

/-! ## Calls -/

/-- **A worker does nothing else.** Every step of one is the call that is listed for its stage. So
what holds of the calls holds of all workers, and of runs in which their steps come in any order. -/
theorem call_advance (settings : Settings) (out path : Path) (files : Files) (stage : Stage) :
    Call out files stage (advance settings out path files stage).1
      (advance settings out path files stage).2 := by
  -- one call in each stage: a read, the conversion, a write, or none
  cases stage with
  | waiting =>
    rw [advance]
    split <;> exact .read rfl rfl
  | loaded document =>
    rw [advance]
    split <;> exact .read rfl rfl
  | marked document html =>
    rw [advance]
    split
    · exact .read rfl rfl
    · split
      · exact .read rfl rfl
      · exact .convert rfl
  | writing bundle todo =>
    cases todo with
    | nil => exact .finish
    | cons action todo => exact call_writing action todo
  | filling bundle place text todo => exact .fill
  | finished bundle => exact .stayFinished
  | stopped bundle why => exact .stayStopped

theorem Call.grows (h : Call out files stage later new) : files.Grows later := by
  cases h with
  | act hgrows => exact hgrows
  | opens _ hfile => exact .putFile hfile []
  | fill => exact .pour files _ _
  | read | convert | finish | stop | stayFinished | stayStopped => exact .refl files

theorem Call.bundle? (h : Call out files stage later new) (hbundle : stage.bundle? = some bundle) :
    new.bundle? = some bundle := by
  cases h with
  | read hnone | convert hnone => rw [hnone] at hbundle; cases hbundle
  | act | opens | fill | finish | stop | stayFinished | stayStopped => exact hbundle

end BlockTheme.Convert
