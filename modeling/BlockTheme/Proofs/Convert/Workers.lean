import BlockTheme.Convert.Batch
import BlockTheme.Proofs.Files.Growth
import Mathlib.Logic.Relation

/-!
# Workers

The files of a batch are converted by workers that run side by side. Each of them calls the file
system many times, and between two of its calls the others may do anything. `Convert.advance` takes a
worker through one call, and `Pool.run` lets the workers of a pool take turns in any order.

A batch that converts one file after the other is one of these orders (`Pool.exists_order_collect`).
-/

namespace BlockTheme

namespace Convert

/-! ## One worker -/

/-- A call to the file system by a worker that writes a theme. -/
inductive Action where
  /-- Makes a directory. If the one above it is missing, that one is made first. -/
  | make (path : Path)
  /-- Makes a directory after the one above it. -/
  | remake (path : Path)
  /-- Looks whether a directory that could not be made is there already. -/
  | check (path : Path) (why : Files.Failure)
  /-- Opens a file for a text. -/
  | write (path : Path) (text : String)

/-- What comes of an action. -/
inductive Outcome where
  | failed (why : Files.Failure)
  /-- The action is done, but for some more. -/
  | done (more : List Action)
  /-- A file is open for a text. -/
  | opened (place : Location) (text : String)

/-- Whether a directory could not be made because the one above it is missing. -/
def isMissing : Files.Failure → Bool
  | .refused .notFound _ => true
  | _ => false

/-- What an action does to files, and what is to be done after it. -/
def Action.perform (files : Files) : Action → Files × Outcome
  | .make path =>
    match files.makeOne path with
    | .ok made => (made, .done [])
    | .error why =>
      (files, .done (if isMissing why && !path.parts.isEmpty then [.make path.parent, .remake path]
        else [.check path why]))
  | .remake path =>
    match files.makeOne path with
    | .ok made => (made, .done [])
    | .error why => (files, .done [.check path why])
  | .check path why =>
    match files.unlessThere path why with
    | some why => (files, .failed why)
    | none => (files, .done [])
  | .write path text =>
    match files.locate path, files.write path "" with
    | .ok place, .ok opened => (opened, .opened place text)
    | .error why, _ => (files, .failed why)
    | .ok _, .error why => (files, .failed why)

/-- The actions that save a text. -/
def saving : Path × String → List Action
  | (path, text) => [.make path.parent, .write path text]

/-- The actions that write a theme. -/
def actions (out : Path) (bundle : Bundle) : List Action :=
  .make (themeDirectory out bundle) :: (writes out bundle).flatMap saving

/-- Texts are written by the actions for a bundle exactly where the bundle has them. -/
theorem write_mem_actions_iff {out path : Path} {bundle : Bundle} {text : String} :
    .write path text ∈ actions out bundle ↔ (path, text) ∈ writes out bundle := by
  simp [actions, saving]

/-- How far a worker has come. -/
inductive Stage where
  | waiting
  /-- The document is read. -/
  | loaded (document : Document)
  /-- The markup beside the document is read, too. -/
  | marked (document : Document) (html : Option String)
  | writing (bundle : Bundle) (todo : List Action)
  /-- A file is open, and its text comes next. -/
  | filling (bundle : Bundle) (place : Location) (text : String) (todo : List Action)
  | finished (bundle : Bundle)
  | stopped (bundle : Option Bundle) (why : FileFailure)

namespace Stage

/-- The theme of a worker that has converted its document. -/
def bundle? : Stage → Option Bundle
  | .waiting | .loaded _ | .marked _ _ => none
  | .writing bundle _ | .filling bundle _ _ _ | .finished bundle => some bundle
  | .stopped bundle _ => bundle

/-- The row of a worker that has come to its end. -/
def row? (out path : Path) : Stage → Option Row
  | .finished bundle => some (Row.converted path out bundle)
  | .stopped _ why => some (Row.failed path why.message)
  | _ => none

end Stage

/-- A worker makes its next call to the file system. -/
def advance (settings : Settings) (out path : Path) (files : Files) : Stage → Files × Stage
  | .waiting =>
    match load files path with
    | .error why => (files, .stopped none why)
    | .ok document => (files, .loaded document)
  | .loaded document =>
    match sibling? files path ".html" with
    | .error why => (files, .stopped none why)
    | .ok html => (files, .marked document html)
  | .marked document html =>
    match sibling? files path ".css" with
    | .error why => (files, .stopped none why)
    | .ok css =>
      match convert settings document html css with
      | .error why => (files, .stopped none (.conversion why))
      | .ok bundle => (files, .writing bundle (actions out bundle))
  | .writing bundle [] => (files, .finished bundle)
  | .writing bundle (action :: todo) =>
    match action.perform files with
    | (files, .failed why) => (files, .stopped (some bundle) (.files why))
    | (files, .done more) => (files, .writing bundle (more ++ todo))
    | (files, .opened place text) => (files, .filling bundle place text todo)
  | .filling bundle place text todo => (files.pour place text, .writing bundle todo)
  | .finished bundle => (files, .finished bundle)
  | .stopped bundle why => (files, .stopped bundle why)

end Convert

/-! ## Many workers -/

/-- Workers with their documents' paths, and the files that they share. -/
structure Pool where
  files : Files
  workers : List (Path × Convert.Stage)

namespace Pool

/-- A pool before anything has happened. -/
def start (files : Files) (paths : List Path) : Pool := ⟨files, paths.map (·, .waiting)⟩

variable (settings : Settings) (out : Path)

/-- The worker with a number makes its next call. -/
def step (pool : Pool) (i : Nat) : Pool :=
  match pool.workers[i]? with
  | none => pool
  | some (path, stage) =>
    let (files, stage) := Convert.advance settings out path pool.files stage
    ⟨files, pool.workers.set i (path, stage)⟩

/-- The workers make their calls in an order. -/
def run (pool : Pool) (order : List Nat) : Pool := order.foldl (step settings out) pool

/-- The rows of the workers that have come to their ends. -/
def rows (pool : Pool) : List Row := pool.workers.filterMap fun (path, stage) => stage.row? out path

/-- All workers have come to their ends. -/
def IsDone (pool : Pool) : Prop :=
  ∀ worker ∈ pool.workers, (worker.2.row? out worker.1).isSome

variable {settings out} in
/-- A step of a pool is a step of the worker whose turn it is, with the files as they are. -/
theorem step_eq {pool : Pool} {i : Nat} {path : Path} {stage : Convert.Stage}
    (hi : pool.workers[i]? = some (path, stage)) :
    pool.step settings out i
      = ⟨(Convert.advance settings out path pool.files stage).1,
        pool.workers.set i (path, (Convert.advance settings out path pool.files stage).2)⟩ := by
  rw [step, hi]

theorem run_append (pool : Pool) (first second : List Nat) :
    pool.run settings out (first ++ second)
      = (pool.run settings out first).run settings out second :=
  List.foldl_append

theorem run_concat (pool : Pool) (order : List Nat) (i : Nat) :
    pool.run settings out (order ++ [i]) = (pool.run settings out order).step settings out i :=
  run_append settings out pool order [i]

end Pool

namespace Convert

/-! ## A worker alone -/

variable {settings : Settings} {out path : Path} {files : Files}

/-- A worker that nobody interrupts gets from one stage to another. -/
def Leads (settings : Settings) (out path : Path) : Files × Stage → Files × Stage → Prop :=
  Relation.ReflTransGen fun before after => advance settings out path before.1 before.2 = after

theorem Leads.step {before after : Files × Stage}
    (h : advance settings out path before.1 before.2 = after) :
    Leads settings out path before after :=
  Relation.ReflTransGen.single h

/-- The stage after what was written, or was not. -/
def resume (bundle : Bundle) (todo : List Action) : Files × Option Files.Failure → Files × Stage
  | (files, none) => (files, .writing bundle todo)
  | (files, some why) => (files, .stopped (some bundle) (.files why))

variable {bundle : Bundle}

/-- Looking whether something is there ends with the failure, or with the rest to do. -/
theorem leads_check (place : Path) (why : Files.Failure) (todo : List Action) :
    Leads settings out path (files, .writing bundle (.check place why :: todo))
      (resume bundle todo (files, files.unlessThere place why)) := by
  refine Leads.step ?_
  cases hthere : files.unlessThere place why <;> simp [advance, Action.perform, resume, hthere]

/-- Making a directory for the second time, when those above it have been made, takes one step or
two: a failure counts only if nothing is there. -/
theorem leads_remake (place : Path) (todo : List Action) :
    Leads settings out path (files, .writing bundle (.remake place :: todo))
      (resume bundle todo
        (match files.makeOne place with
        | .ok made => (made, none)
        | .error why => (files, files.unlessThere place why))) := by
  cases hmake : files.makeOne place with
  | ok made => exact Leads.step (by simp [advance, Action.perform, resume, hmake])
  | error why =>
    refine Relation.ReflTransGen.head ?_ (leads_check place why todo)
    simp [advance, Action.perform, hmake]

/-- Making a directory takes a worker as far up as directories are missing. The calls are those of
the recursion, so this is by induction on the number of names in the path. -/
theorem leads_makeFrom (fuel : Nat) (place : Path) (hfuel : place.parts.length = fuel)
    (todo : List Action) :
    Leads settings out path (files, .writing bundle (.make place :: todo))
      (resume bundle todo (files.makeFrom fuel place)) := by
  induction fuel generalizing place todo with
  | zero =>
    -- the fuel is spent where nothing is above
    have hempty : place.parts = [] := List.length_eq_zero_iff.1 hfuel
    rw [Files.makeFrom]
    cases hmake : files.makeOne place with
    | ok made => exact Leads.step (by simp [advance, Action.perform, resume, hmake])
    | error why =>
      refine Relation.ReflTransGen.head ?_ (leads_check place why todo)
      simp [advance, Action.perform, hmake, hempty]
  | succ fuel ih =>
    have hempty : place.parts.isEmpty = false := by
      rw [List.isEmpty_eq_false_iff_exists_mem]
      exact List.exists_mem_of_length_pos (by omega)
    rw [Files.makeFrom]
    split
    · next made hmake => exact Leads.step (by simp [advance, Action.perform, resume, hmake])
    · next missing hmake =>
      have hparent : place.parent.parts.length = fuel := by
        rw [Path.parent, List.length_dropLast, hfuel, Nat.add_sub_cancel]
      -- first the directory above, and then this one once more
      have habove := ih place.parent hparent (.remake place :: todo)
      refine Relation.ReflTransGen.head ?_ (habove.trans ?_)
      · simp [advance, Action.perform, hmake, isMissing, hempty]
      · rw [hempty, if_neg Bool.false_ne_true]
        rcases files.makeFrom fuel place.parent with ⟨above, _ | why⟩
        · exact leads_remake place todo
        · exact Relation.ReflTransGen.refl
    · next why hother hmake =>
      have hmissing : isMissing why = false := by
        unfold isMissing
        split
        · next missing => exact absurd rfl (hother missing)
        · rfl
      refine Relation.ReflTransGen.head ?_ (leads_check place why todo)
      simp [advance, Action.perform, hmake, hmissing]

/-- Making a directory and those above it takes as many steps as there are directories to be made,
and ends as it would have ended at once. -/
theorem leads_make (place : Path) (todo : List Action) :
    Leads settings out path (files, .writing bundle (.make place :: todo))
      (resume bundle todo (files.make place)) :=
  leads_makeFrom _ place rfl todo

/-- Writing a text takes two calls: one that opens the file and empties it, and one that fills it.
If the first one fails, there is no second. -/
theorem leads_write (place : Path) (text : String) (todo : List Action) :
    Leads settings out path (files, .writing bundle (.write place text :: todo))
      (resume bundle todo
        (match files.write place text with
        | .ok files => (files, none)
        | .error why => (files, some why))) := by
  cases hlocate : files.locate place with
  | error why =>
    refine Leads.step ?_
    simp [advance, Action.perform, resume, hlocate, Files.write, Files.writeBytes]
  | ok location =>
    -- a file is emptied when it is opened, and filled in a second step
    rw [Files.write_eq_pour hlocate]
    cases hopen : files.write place "" with
    | error why =>
      refine Leads.step ?_
      simp [advance, Action.perform, resume, hlocate, hopen, Except.map]
    | ok opened =>
      refine Relation.ReflTransGen.head (b := (opened, .filling bundle location text todo)) ?_
        (Leads.step rfl)
      simp [advance, Action.perform, hlocate, hopen]

/-- Saving texts takes the calls for one text after the other, by induction on the texts. What is
still to be done afterwards is left open, so that the induction goes through. -/
theorem leads_saveAll (texts : List (Path × String)) (todo : List Action) :
    Leads settings out path (files, .writing bundle (texts.flatMap saving ++ todo))
      (resume bundle todo (files.saveAll texts)) := by
  induction texts generalizing files with
  | nil => exact Relation.ReflTransGen.refl
  | cons first rest ih =>
    obtain ⟨place, text⟩ := first
    -- each text takes two actions, one for its directory and one for the file
    show Leads settings out path
      (files, .writing bundle
        (.make place.parent :: .write place text :: (rest.flatMap saving ++ todo))) _
    refine (leads_make place.parent _).trans ?_
    rw [Files.saveAll, Files.save_eq]
    rcases files.make place.parent with ⟨made, _ | why⟩
    · refine (leads_write place text _).trans ?_
      dsimp only
      cases made.write place text with
      | ok written => exact ih
      | error why => exact Relation.ReflTransGen.refl
    · exact Relation.ReflTransGen.refl

/-- All actions for a bundle lead to what writing it at once leads to. Directories come first, then
texts. -/
theorem leads_writeBundle (path : Path) (bundle : Bundle) :
    Leads settings out path (files, .writing bundle (actions out bundle))
      (resume bundle [] (writeBundle files out bundle)) := by
  refine (leads_make (themeDirectory out bundle) _).trans ?_
  rw [writeBundle]
  rcases files.make (themeDirectory out bundle) with ⟨made, _ | why⟩
  · have hsave : Leads settings out path
        (made, .writing bundle ((writes out bundle).flatMap saving ++ []))
        (resume bundle [] (made.saveAll (writes out bundle))) :=
      leads_saveAll (writes out bundle) []
    rwa [List.append_nil] at hsave
  · exact Relation.ReflTransGen.refl

/-- A worker begins with a step in which it loads and converts its document, with the files as they
are at that moment. -/
theorem leads_bundleOf (settings : Settings) (out path : Path) (files : Files) :
    Leads settings out path (files, .waiting)
      (match bundleOf settings files path with
      | .ok bundle => (files, .writing bundle (actions out bundle))
      | .error why => (files, .stopped none why)) := by
  unfold bundleOf
  cases hload : load files path with
  | error why => exact Leads.step (by simp [advance, hload, bind, Except.bind])
  | ok document =>
    -- one step for each file that is read, and the last one for the conversion
    refine Relation.ReflTransGen.head (b := (files, .loaded document)) (by simp [advance, hload]) ?_
    cases hhtml : sibling? files path ".html" with
    | error why => exact Leads.step (by simp [advance, hhtml, bind, Except.bind])
    | ok html =>
      refine Relation.ReflTransGen.head (b := (files, .marked document html))
        (by simp [advance, hhtml]) ?_
      cases hcss : sibling? files path ".css" with
      | error why => exact Leads.step (by simp [advance, hcss, bind, Except.bind])
      | ok css =>
        refine Leads.step ?_
        cases hconvert : convert settings document html css <;>
          simp [advance, hcss, hconvert, bind, Except.bind]

/-- **A worker that nobody interrupts does the work of a batch on its file.** Its steps one after
the other come to what the batch does at once. -/
theorem leads_work (settings : Settings) (out path : Path) (files : Files) :
    ∃ stage, Leads settings out path (files, .waiting) ((work settings out files path).1, stage)
      ∧ stage.row? out path = some (Batch.rowOf path (work settings out files path).2) := by
  have hbundle := leads_bundleOf settings out path files
  -- a stopped worker and a failed run give the same row
  have hrow : ∀ why : FileFailure, Row.failed path why.message
      = Batch.rowOf path (if why.isReported then .ok (Row.failed path why.message)
        else .error why) := by
    intro why
    split <;> rfl
  unfold work convertFile
  cases hconverted : bundleOf settings files path with
  | error why =>
    rw [hconverted] at hbundle
    exact ⟨.stopped none why, hbundle, by rw [Stage.row?, hrow]⟩
  | ok bundle =>
    rw [hconverted] at hbundle
    -- from the bundle on, the writing
    have hwrite := hbundle.trans (leads_writeBundle path bundle)
    dsimp only
    rcases hwritten : writeBundle files out bundle with ⟨written, _ | why⟩
    · rw [hwritten] at hwrite
      exact ⟨.finished bundle, hwrite.tail rfl, rfl⟩
    · rw [hwritten] at hwrite
      exact ⟨.stopped (some bundle) (.files why), hwrite, by rw [Stage.row?, hrow]⟩

end Convert

namespace Pool

variable {settings : Settings} {out : Path}

/-! ## One file after the other -/

/-- What a worker does alone, it does in a pool where the others wait. -/
theorem exists_order_of_leads (pool : Pool) {i : Nat} {path : Path} {stage : Convert.Stage}
    {after : Files × Convert.Stage} (hi : pool.workers[i]? = some (path, stage))
    (h : Convert.Leads settings out path (pool.files, stage) after) :
    ∃ order, pool.run settings out order = ⟨after.1, pool.workers.set i (path, after.2)⟩ := by
  obtain ⟨hlt, hself⟩ := List.getElem?_eq_some_iff.1 hi
  induction h with
  | refl => exact ⟨[], by rw [← hself, List.set_getElem_self]; rfl⟩
  | tail _ hstep ih =>
    obtain ⟨order, hrun⟩ := ih
    refine ⟨order ++ [i], ?_⟩
    rw [run_concat, hrun, step_eq (List.getElem?_set_self hlt), ← hstep, List.set_set]

/-- A batch in which the documents are converted one after the other is the run of a pool in one
order: each worker takes all of its steps before the next one starts. By induction on the documents.
-/
theorem exists_order_collect_from (settings : Settings) (out : Path)
    (before : List (Path × Convert.Stage)) (files : Files) (paths : List Path) :
    ∃ order ended,
      (⟨files, before ++ paths.map (·, .waiting)⟩ : Pool).run settings out order
          = ⟨(Batch.collect settings out files paths).1, before ++ ended⟩
        ∧ ended.map (fun worker => worker.2.row? out worker.1)
          = (Batch.collect settings out files paths).2.map some := by
  -- on the paths, with the workers that have ended standing in front
  induction paths generalizing before files with
  | nil => exact ⟨[], [], rfl, rfl⟩
  | cons path rest ih =>
    obtain ⟨stage, hleads, hrow⟩ := Convert.leads_work settings out path files
    have hi : (before ++ (path :: rest).map (·, Convert.Stage.waiting))[before.length]?
        = some (path, .waiting) := by simp
    -- the first path runs to its end before the others begin
    obtain ⟨first, hfirst⟩ := exists_order_of_leads
      ⟨files, before ++ (path :: rest).map (·, .waiting)⟩ hi hleads
    obtain ⟨order, ended, hrun, hrows⟩ :=
      ih (before ++ [(path, stage)]) (Convert.work settings out files path).1
    refine ⟨first ++ order, (path, stage) :: ended, ?_, ?_⟩
    · rw [List.append_assoc] at hrun
      rw [run_append, hfirst, Batch.collect]
      simpa using hrun
    · rw [List.map_cons, hrow, hrows]
      rfl

/-- **A batch is one of the orders**: some order lets the workers do what the batch does one file
after the other. -/
theorem exists_order_collect (settings : Settings) (out : Path) (files : Files)
    (paths : List Path) :
    ∃ order, ((start files paths).run settings out order).IsDone out
      ∧ ((start files paths).run settings out order).files
        = (Batch.collect settings out files paths).1
      ∧ ((start files paths).run settings out order).rows out
        = (Batch.collect settings out files paths).2 := by
  -- each path in its turn, until its worker has ended
  obtain ⟨order, ended, hrun, hrows⟩ := exists_order_collect_from settings out [] files paths
  have hend : (start files paths).run settings out order
      = ⟨(Batch.collect settings out files paths).1, ended⟩ := hrun
  refine ⟨order, ?_, ?_, ?_⟩
  · intro worker hworker
    rw [hend] at hworker
    -- every worker has a row, hence has ended
    have hrow : worker.2.row? out worker.1
        ∈ (Batch.collect settings out files paths).2.map some := by
      rw [← hrows]
      exact List.mem_map.2 ⟨worker, hworker, rfl⟩
    obtain ⟨row, -, hsome⟩ := List.mem_map.1 hrow
    rw [← hsome]
    rfl
  · rw [hend]
  · have hids := congrArg (List.filterMap id) hrows
    rw [hend, rows]
    simpa [List.filterMap_map, Function.comp_def] using hids

end Pool

end BlockTheme
