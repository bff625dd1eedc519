import BlockTheme.Proofs.Convert.Reports
import Mathlib.Data.List.Sort

/-!
# Collecting rows

A batch collects the rows of its workers in the order in which they end, and nobody knows that order.
`Collection.Step` lets any job that still runs end next; what a job ends with is a row, or a failure
that no row was made for. Each step moves one row from the jobs to the collection
(`Collection.Step.perm`), so that a whole run collects the rows of all jobs in some order
(`Batch.Collects.exists_perm`), and all orders are sorted alike if the paths differ
(`Batch.ofRows_eq_of_perm`). What a batch reports is then one thing (`Batch.collects_iff`).
-/

namespace BlockTheme

namespace Batch

/-! ## Jobs -/

/-- What the work on a file ends with. -/
inductive Ending where
  | returned (row : Row)
  | raised (message : String)

/-- A document of a batch, and how its conversion ended. -/
structure Job where
  path : Path
  ending : Ending

/-- What the work on a file ended with, as the batch sees it. -/
def Ending.ofWork : Except Convert.FileFailure Row → Ending
  | .ok row => .returned row
  | .error why => .raised why.message

/-- Whether a document was converted. -/
def Ending.isOk : Ending → Bool
  | .returned row => row.isOk
  | .raised _ => false

namespace Job

/-- The row that the batch has for a job. -/
def row (job : Job) : Row :=
  match job.ending with
  | .returned row => row
  | .raised message => Row.failed job.path message

/-- If a job returns a row, the row reports the job's file. -/
def Reports (job : Job) : Prop := ∀ row, job.ending = .returned row → row.Reports job.path

/-- The row of a job is the one that the batch makes of how the worker ended. -/
theorem row_ofWork (path : Path) (done : Except Convert.FileFailure Row) :
    row ⟨path, .ofWork done⟩ = rowOf path done := by
  cases done <;> rfl

/-- A row counts as a success exactly if the job does. -/
theorem isOk_row (job : Job) : job.row.isOk = job.ending.isOk := by
  obtain ⟨path, ending⟩ := job
  cases ending <;> rfl

/-- The row for a job reports its file, whether the job made the row or the batch did. -/
theorem Reports.reports_row {job : Job} (h : job.Reports) : job.row.Reports job.path := by
  unfold row
  split
  · next row hreturned => exact h row hreturned
  · exact Row.reports_failed job.path _

/-- What a worker gives back reports its own document. -/
theorem reports_ofWork (settings : Settings) (out : Path) (files : Files) (path : Path) :
    Reports ⟨path, .ofWork (Convert.work settings out files path).2⟩ := by
  intro row hrow
  cases hwork : (Convert.work settings out files path).2 with
  | error why =>
    rw [hwork] at hrow
    cases hrow
  | ok made =>
    rw [hwork] at hrow
    cases hrow
    exact Convert.reports_work hwork

end Job

/-! ## Rows in any order -/

variable {jobs order : List Job} {batch : Batch}

/-- Each path has its own text, and each row that is returned reports its file. -/
structure Separate (jobs : List Job) : Prop where
  nodup : (jobs.map (·.path.text)).Nodup
  reports : ∀ job ∈ jobs, job.Reports

theorem Separate.map_source (h : Separate jobs) :
    (jobs.map Job.row).map Row.source = jobs.map (·.path.text) := by
  rw [List.map_map]
  exact List.map_congr_left fun job hjob => (h.reports job hjob).reports_row.source_eq

/-- Collecting rows brings them into an order and loses none. -/
theorem rows_ofRows_perm (rows : List Row) : (ofRows rows).rows.Perm rows :=
  List.mergeSort_perm rows _

/-- The rows of a batch stand by their sources. -/
theorem pairwise_ofRows (rows : List Row) :
    (ofRows rows).rows.Pairwise fun a b => a.source ≤ b.source := by
  have hsorted : (ofRows rows).rows.Pairwise fun a b => decide (a.source ≤ b.source) = true := by
    apply List.pairwise_mergeSort
    · intro a b c hab hbc
      exact decide_eq_true (String.le_trans (of_decide_eq_true hab) (of_decide_eq_true hbc))
    · intro a b
      simpa using String.le_total a.source b.source
  exact hsorted.imp of_decide_eq_true

/-- **Sorting forgets the order in which rows came**, if no two of them have one source. Rows are
sorted by their sources. -/
theorem ofRows_eq_of_perm {first second : List Row} (hperm : first.Perm second)
    (hnodup : (second.map Row.source).Nodup) : ofRows first = ofRows second := by
  have hequal : ∀ a b, a ∈ (ofRows first).rows → b ∈ (ofRows second).rows →
      a.source ≤ b.source → b.source ≤ a.source → a = b := by
    intro a b ha hb hab hba
    have hmem : a ∈ second := hperm.mem_iff.1 ((rows_ofRows_perm first).mem_iff.1 ha)
    exact List.inj_on_of_nodup_map hnodup hmem ((rows_ofRows_perm second).mem_iff.1 hb)
      (String.le_antisymm hab hba)
  have hrows : (ofRows first).rows.Perm (ofRows second).rows :=
    (rows_ofRows_perm first).trans (hperm.trans (rows_ofRows_perm second).symm)
  exact congrArg Batch.mk
    (hrows.eq_of_pairwise hequal (pairwise_ofRows first) (pairwise_ofRows second))

/-! ## Steps -/

/-- A batch that is not done: the jobs that still run, and the rows of those that have ended, in the
order in which they did. -/
structure Collection where
  running : List Job
  rows : List Row

namespace Collection

/-- One of the jobs ends, and its row is put behind the others. -/
inductive Step : Collection → Collection → Prop
  | ends (before : List Job) (job : Job) (after : List Job) (rows : List Row) :
      Step ⟨before ++ job :: after, rows⟩ ⟨before ++ after, rows ++ [job.row]⟩

/-- All rows that a collection will have in the end. -/
def all (collection : Collection) : List Row :=
  collection.rows ++ collection.running.map Job.row

/-- A step loses no row and doubles none. -/
theorem Step.perm {first second : Collection} (h : Step first second) :
    second.all.Perm first.all := by
  obtain ⟨before, job, after, rows⟩ := h
  show ((rows ++ [job.row]) ++ (before ++ after).map Job.row).Perm
    (rows ++ (before ++ job :: after).map Job.row)
  rw [List.append_assoc, List.map_append, List.map_append, List.map_cons]
  apply List.Perm.append_left
  show (job.row :: (before.map Job.row ++ after.map Job.row)).Perm
    (before.map Job.row ++ job.row :: after.map Job.row)
  exact List.perm_middle.symm

/-- Neither does a run. -/
theorem perm_of_reaches {first second : Collection} (h : Relation.ReflTransGen Step first second) :
    second.all.Perm first.all := by
  induction h with
  | refl => exact List.Perm.refl _
  | tail _ hstep ih => exact hstep.perm.trans ih

/-- Jobs may end in any order: for each order of them there are steps that take the jobs from
running to collected, one after the other. -/
theorem reaches_of_perm {running : List Job} (h : order.Perm running) (rows : List Row) :
    Relation.ReflTransGen Step ⟨running, rows⟩ ⟨[], rows ++ order.map Job.row⟩ := by
  induction order generalizing running rows with
  | nil =>
    rw [h.symm.eq_nil, List.map_nil, List.append_nil]
  | cons job rest ih =>
    -- the first one of the order is somewhere among those that run
    obtain ⟨before, after, rfl⟩ := List.append_of_mem (h.subset List.mem_cons_self)
    have hrest : rest.Perm (before ++ after) := (h.trans List.perm_middle).cons_inv
    refine Relation.ReflTransGen.head (Step.ends before job after rows) ?_
    have hreaches := ih hrest (rows ++ [job.row])
    rwa [List.append_assoc] at hreaches

end Collection

/-! ## Batches -/

/-- A batch is what its jobs lead to when all of them have ended. -/
def Collects (jobs : List Job) (batch : Batch) : Prop :=
  ∃ rows, Relation.ReflTransGen Collection.Step ⟨jobs, []⟩ ⟨[], rows⟩ ∧ batch = ofRows rows

/-- What is collected are the rows of all jobs, in some order. -/
theorem Collects.exists_perm (h : Collects jobs batch) :
    ∃ rows : List Row, rows.Perm (jobs.map Job.row) ∧ batch = ofRows rows := by
  obtain ⟨rows, hreaches, rfl⟩ := h
  have hperm : (rows ++ []).Perm ([] ++ jobs.map Job.row) := Collection.perm_of_reaches hreaches
  rw [List.append_nil] at hperm
  exact ⟨rows, hperm, rfl⟩

/-- In whichever order jobs end, what is collected of them is the same. -/
theorem collects_of_perm (h : order.Perm jobs) : Collects jobs (ofRows (order.map Job.row)) :=
  ⟨order.map Job.row, Collection.reaches_of_perm h [], rfl⟩

/-- The jobs of a batch that works on one file after the other. -/
def jobsOf (settings : Settings) (out : Path) (files : Files) : List Path → List Job
  | [] => []
  | path :: rest =>
    let (files, done) := Convert.work settings out files path
    ⟨path, .ofWork done⟩ :: jobsOf settings out files rest

theorem map_path_jobsOf (settings : Settings) (out : Path) (files : Files) (paths : List Path) :
    (jobsOf settings out files paths).map Job.path = paths := by
  induction paths generalizing files with
  | nil => rfl
  | cons path rest ih => exact congrArg (path :: ·) (ih _)

/-- The rows that are collected one after the other are those of the jobs. -/
theorem map_row_jobsOf (settings : Settings) (out : Path) (files : Files) (paths : List Path) :
    (jobsOf settings out files paths).map Job.row = (collect settings out files paths).2 := by
  induction paths generalizing files with
  | nil => rfl
  | cons path rest ih =>
    rw [jobsOf, List.map_cons, Job.row_ofWork, ih]
    rfl

theorem reports_jobsOf (settings : Settings) (out : Path) (files : Files) (paths : List Path) :
    ∀ job ∈ jobsOf settings out files paths, job.Reports := by
  induction paths generalizing files with
  | nil => simp [jobsOf]
  | cons path rest ih =>
    intro job hjob
    rw [jobsOf] at hjob
    obtain rfl | hrest := List.mem_cons.1 hjob
    · exact Job.reports_ofWork settings out files path
    · exact ih _ job hrest

/-- A batch whose files have different paths is made of separate jobs. -/
theorem separate_jobsOf {paths : List Path} (hnodup : (paths.map Path.text).Nodup)
    (settings : Settings) (out : Path) (files : Files) :
    Separate (jobsOf settings out files paths) where
  nodup := by
    show ((jobsOf settings out files paths).map (Path.text ∘ Job.path)).Nodup
    rwa [← List.map_map, map_path_jobsOf]
  reports := reports_jobsOf settings out files paths

theorem collects_run (settings : Settings) (out : Path) (files : Files) (paths : List Path) :
    Collects (jobsOf settings out files paths) (run settings out files paths).2 := by
  have hcollects := collects_of_perm (List.Perm.refl (jobsOf settings out files paths))
  rwa [map_row_jobsOf] at hcollects

/-- What a batch reports: one row for each job, by their paths, and how many of them were
converted. -/
structure Accounts (jobs : List Job) (batch : Batch) : Prop where
  rows : batch.rows.Perm (jobs.map Job.row)
  sources : (batch.rows.map Row.source).Perm (jobs.map (·.path.text))
  sorted : (batch.rows.map Row.source).Pairwise (· < ·)
  total : batch.total = jobs.length
  succeeded : batch.succeeded = jobs.countP (·.ending.isOk)
  sum : batch.succeeded + batch.failed = batch.total

/-- Of different documents each has one row, which is found by its name. Sorting by the sources is a
permutation, and sources that differ stand in strict order. -/
theorem Separate.accounts (h : Separate jobs) : Accounts jobs (ofRows (jobs.map Job.row)) := by
  have hrows := rows_ofRows_perm (jobs.map Job.row)
  have hsources : ((ofRows (jobs.map Job.row)).rows.map Row.source).Perm (jobs.map (·.path.text)) := by
    rw [← h.map_source]
    exact hrows.map Row.source
  refine ⟨hrows, hsources, ?_, ?_, ?_, ?_⟩
  · -- sources that are sorted and differ are sorted strictly
    have hdistinct := List.pairwise_map.1 (hsources.nodup_iff.2 h.nodup)
    apply List.pairwise_map.2
    refine ((pairwise_ofRows _).and hdistinct).imp ?_
    rintro a b ⟨hle, hne⟩
    apply String.not_le.1
    intro hge
    exact hne (String.le_antisymm hle hge)
  · rw [total, hrows.length_eq, List.length_map]
  · rw [succeeded, hrows.countP_eq, List.countP_map]
    show jobs.countP (fun job => job.row.isOk) = jobs.countP (fun job => job.ending.isOk)
    simp only [Job.isOk_row]
  · show succeeded _ + (total _ - succeeded _) = total _
    apply Nat.add_sub_of_le
    exact List.countP_le_length

/-- **What a batch reports does not depend on the order in which its jobs end.** If the files have
different paths, all orders are possible, all of them lead to one batch, and so does working on one
file after the other. It has one row for each file, whether the worker made it or the batch did, the
rows stand by their sources, and the numbers say how many documents there were and how many of them
were converted. -/
theorem collects_iff (hseparate : Separate jobs) :
    (∀ order : List Job, order.Perm jobs →
        Relation.ReflTransGen Collection.Step ⟨jobs, []⟩ ⟨[], order.map Job.row⟩)
      ∧ (∀ batch, Collects jobs batch ↔ batch = ofRows (jobs.map Job.row))
      ∧ Accounts jobs (ofRows (jobs.map Job.row))
      ∧ ∀ {settings out files paths}, jobs = jobsOf settings out files paths →
        (run settings out files paths).2 = ofRows (jobs.map Job.row) := by
  -- the rows are sorted by their sources, and no two have the same
  have hunique : ∀ batch, Collects jobs batch ↔ batch = ofRows (jobs.map Job.row) := by
    intro batch
    constructor
    · intro hcollects
      obtain ⟨rows, hperm, rfl⟩ := hcollects.exists_perm
      apply ofRows_eq_of_perm hperm
      rw [hseparate.map_source]
      exact hseparate.nodup
    · rintro rfl
      exact collects_of_perm (List.Perm.refl jobs)
  refine ⟨fun order horder => Collection.reaches_of_perm horder [], hunique, hseparate.accounts, ?_⟩
  rintro settings out files paths rfl
  exact (hunique _).1 (collects_run settings out files paths)

/-- A job that ends without a row, one whose document is converted and one whose document fails. -/
def mixedJobs : List Job :=
  [⟨⟨0, ["b.json"]⟩, .raised "markup"⟩,
    ⟨⟨0, ["a.json"]⟩, .returned [("source", .string "a.json"), ("status", .string "ok")]⟩,
    ⟨⟨0, ["c.json"]⟩, .returned (Row.failed ⟨0, ["c.json"]⟩ "missing")⟩]

/-- The jobs of the example are about different documents. -/
theorem separate_mixedJobs : Separate mixedJobs where
  nodup := by decide +kernel
  reports := by
    intro job hjob row hrow
    simp only [mixedJobs, List.mem_cons, List.not_mem_nil, or_false] at hjob
    obtain rfl | rfl | rfl := hjob
    · cases hrow
    · cases hrow
      exact ⟨rfl, .inl rfl⟩
    · cases hrow
      exact Row.reports_failed _ "missing"

/-- Three jobs that end in the reverse of their order lead to one document of three. -/
theorem collects_iff_mixedJobs :
    Separate mixedJobs
      ∧ Collects mixedJobs (ofRows (mixedJobs.reverse.map Job.row))
      ∧ (ofRows (mixedJobs.reverse.map Job.row)).total = 3
      ∧ (ofRows (mixedJobs.reverse.map Job.row)).succeeded = 1 := by
  obtain ⟨hreaches, hunique, haccounts, -⟩ := collects_iff separate_mixedJobs
  have hcollects : Collects mixedJobs (ofRows (mixedJobs.reverse.map Job.row)) :=
    ⟨_, hreaches _ mixedJobs.reverse_perm, rfl⟩
  rw [(hunique _).1 hcollects]
  exact ⟨separate_mixedJobs, (hunique _).2 rfl, haccounts.total, haccounts.succeeded⟩

end Batch

end BlockTheme
