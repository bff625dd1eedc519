import BlockTheme.Proofs.Convert.Calls
import Mathlib.Data.List.Induction

/-!
# What workers leave behind

A worker that is done with a file has put it where the file belongs, and there it stays, whatever the
other workers do (`Pool.Reached`). The text in it is the worker's own if no worker has another text
for that place, except while somebody has the file open. `Pool.sound_run` proves this for every order
of calls: it holds at the start, and every call keeps it (`Turn.sound`).
-/

namespace BlockTheme

open BlockTheme.Convert (Stage Action Call writes)

namespace Pool

variable (out : Path)

/-! ## Places and texts -/

def stage? (pool : Pool) (i : Nat) : Option Stage := pool.workers[i]?.map Prod.snd

/-- Some worker has a text for a file at a place. -/
def Claims (pool : Pool) (place : Location) (text : String) : Prop :=
  ∃ i stage bundle path, pool.stage? i = some stage ∧ stage.bundle? = some bundle
    ∧ (path, text) ∈ writes out bundle ∧ pool.files.destination path = place

/-- Some worker has opened the file at a place, and its text comes next. -/
def Filling (pool : Pool) (place : Location) : Prop :=
  ∃ i bundle text todo, pool.stage? i = some (.filling bundle place text todo)

/-- There is a file at a path. If a text is all that any worker has for its place, the file holds
this text, or it was just opened. -/
def Reached (pool : Pool) (path : Path) (text : String) : Prop :=
  ∃ place content, pool.files.locate path = .ok place
    ∧ pool.files.at? place = some (.file content)
    ∧ ((∀ other, pool.Claims out place other → other = text) →
        content = Text.Utf8.encode text.toList ∨ content = [] ∧ pool.Filling place)

/-- The files of a theme are reached, except for those that are still to be opened. -/
structure Held (pool : Pool) (bundle : Bundle) (todo : List Action) : Prop where
  ahead : ∀ {path text}, .write path text ∈ todo → (path, text) ∈ writes out bundle
  reached : ∀ {path text}, (path, text) ∈ writes out bundle →
    .write path text ∈ todo ∨ pool.Reached out path text

/-- What is true of a worker at a stage. Nothing is promised for one that has failed. -/
def Sound (pool : Pool) : Stage → Prop
  | .writing bundle todo => pool.Held out bundle todo
  | .filling bundle place text todo =>
    pool.Held out bundle todo
      ∧ ∃ path, (path, text) ∈ writes out bundle ∧ pool.files.destination path = place
  | .finished bundle => pool.Held out bundle []
  | .waiting | .loaded _ | .marked _ _ | .stopped _ _ => True

/-! ## Turns -/

/-- A worker has made a call, which took it from one stage to another. -/
structure Turn (pool later : Pool) (i : Nat) (stage new : Stage) : Prop where
  before : pool.stage? i = some stage
  after : later.stage? i = some new
  others : ∀ {j}, j ≠ i → later.stage? j = pool.stage? j
  call : Call out pool.files stage later.files new

variable {out} {settings : Settings} {pool later : Pool} {i : Nat} {stage new : Stage}
  {path : Path} {text : String} {place : Location}

theorem turn_step (settings : Settings) (out : Path) (pool : Pool) (i : Nat) :
    pool.step settings out i = pool
      ∨ ∃ stage new, Turn out pool (pool.step settings out i) i stage new := by
  cases hi : pool.workers[i]? with
  | none => exact Or.inl (by rw [step, hi])
  | some worker =>
    obtain ⟨path, stage⟩ := worker
    obtain ⟨hlt, -⟩ := List.getElem?_eq_some_iff.1 hi
    refine Or.inr ⟨stage, (Convert.advance settings out path pool.files stage).2, ?_⟩
    rw [step_eq hi]
    exact
      { before := by rw [stage?, hi]; rfl
        after := by rw [stage?, List.getElem?_set_self hlt]; rfl
        others := fun hj => by rw [stage?, stage?, List.getElem?_set_ne (Ne.symm hj)]
        call := Convert.call_advance settings out path pool.files stage }

namespace Turn

variable (turn : Turn out pool later i stage new)

include turn

/-- A worker keeps its texts. -/
theorem claims (h : pool.Claims out place text) : later.Claims out place text := by
  obtain ⟨j, held, bundle, path, hheld, hbundle, hwrites, hplace⟩ := h
  have hdestination : later.files.destination path = place := by
    rw [turn.call.grows.destination, hplace]
  by_cases hj : j = i
  · subst hj
    obtain rfl := Option.some.inj (turn.before.symm.trans hheld)
    exact ⟨j, new, bundle, path, turn.after, turn.call.bundle? hbundle, hwrites, hdestination⟩
  · exact ⟨j, held, bundle, path, (turn.others hj).trans hheld, hbundle, hwrites, hdestination⟩

/-- A file that is open stays open until its worker makes a call. -/
theorem filling (hstage : ∀ bundle text todo, stage ≠ .filling bundle place text todo)
    (h : pool.Filling place) : later.Filling place := by
  obtain ⟨j, bundle, text, todo, hj⟩ := h
  have hne : j ≠ i := by
    rintro rfl
    exact hstage bundle text todo (Option.some.inj (turn.before.symm.trans hj))
  exact ⟨j, bundle, text, todo, (turn.others hne).trans hj⟩

/-- A call that leaves a file alone leaves it reached. -/
theorem reached_of_at? {content : List UInt8} (hlocate : pool.files.locate path = .ok place)
    (hlater : later.files.at? place = some (.file content))
    (hstage : ∀ bundle text todo, stage ≠ .filling bundle place text todo)
    (h : (∀ other, pool.Claims out place other → other = text) →
      content = Text.Utf8.encode text.toList ∨ content = [] ∧ pool.Filling place) :
    later.Reached out path text := by
  refine ⟨place, content, turn.call.grows.locate hlocate, hlater, fun honly => ?_⟩
  rcases h fun other hother => honly other (turn.claims hother) with htext | ⟨hempty, hfilling⟩
  · exact Or.inl htext
  · exact Or.inr ⟨hempty, turn.filling hstage hfilling⟩

/-- **What is reached stays reached.** Calls make files grow, and a path in grown files leads where
it led. -/
theorem reached (hsound : pool.Sound out stage) (h : pool.Reached out path text) :
    later.Reached out path text := by
  obtain ⟨place, content, hlocate, hat, hcontent⟩ := h
  have hcall := turn.call
  generalize hfiles : later.files = files at hcall
  cases hcall with
  | read hnone | convert hnone =>
    -- a worker without a theme has no file open
    refine turn.reached_of_at? hlocate (by rw [hfiles, hat]) ?_ hcontent
    rintro bundle text todo rfl
    cases hnone
  | act hgrows hkeeps =>
    exact turn.reached_of_at? hlocate (by rw [hfiles, hkeeps hat]) (by simp) hcontent
  | finish | stop | stayFinished | stayStopped =>
    exact turn.reached_of_at? hlocate (by rw [hfiles, hat]) (by simp) hcontent
  | @opens bundle opened other spot todo hopened hfile =>
    have hput := Files.at?_put pool.files (Files.ne_nil_of_at?_ne hfile) (.file []) place
    by_cases hspot : place = spot
    · -- the file is emptied, and its worker's text comes next
      rw [if_pos hspot, ← hfiles] at hput
      subst hspot
      exact ⟨place, [], turn.call.grows.locate hlocate, hput,
        fun _ => Or.inr ⟨rfl, i, bundle, other, todo, turn.after⟩⟩
    · rw [if_neg hspot, hat, ← hfiles] at hput
      exact turn.reached_of_at? hlocate hput (by simp) hcontent
  | @fill bundle spot other todo =>
    obtain ⟨hheld, source, hsource, hdestination⟩ := hsound
    by_cases hspot : place = spot
    · subst hspot
      have hput := Files.at?_pour_self other hat
      rw [← hfiles] at hput
      refine ⟨place, _, turn.call.grows.locate hlocate, hput, fun honly => Or.inl ?_⟩
      -- the text is written over the same text, or over nothing
      have hclaims : pool.Claims out place other :=
        ⟨i, _, bundle, source, turn.before, rfl, hsource, hdestination⟩
      obtain rfl := honly other (turn.claims hclaims)
      rcases hcontent fun text htext => honly text (turn.claims htext) with hsame | ⟨hempty, -⟩
      · rw [hsame, List.drop_length, List.append_nil]
      · rw [hempty, List.drop_nil, List.append_nil]
    · have hkept : later.files.at? place = some (.file content) := by
        rw [hfiles, Files.at?_pour_ne hspot, hat]
      refine turn.reached_of_at? hlocate hkept (fun _ _ _ heq => hspot ?_) hcontent
      cases heq
      rfl

theorem held {bundle : Bundle} {todo : List Action} (hsound : pool.Sound out stage)
    (h : pool.Held out bundle todo) : later.Held out bundle todo :=
  ⟨h.ahead, fun hwrites => (h.reached hwrites).imp_right (turn.reached hsound)⟩

/-- What is true of a worker stays true while another one makes its call. -/
theorem sound_of_sound {other : Stage} (hsound : pool.Sound out stage) (h : pool.Sound out other) :
    later.Sound out other := by
  cases other with
  | writing bundle todo => exact turn.held hsound h
  | filling bundle place text todo =>
    obtain ⟨hheld, path, hwrites, hplace⟩ := h
    refine ⟨turn.held hsound hheld, path, hwrites, ?_⟩
    rw [turn.call.grows.destination, hplace]
  | finished bundle => exact turn.held hsound h
  | waiting | loaded | marked | stopped => trivial

/-- What is true of a worker is true of it after its call. Only a write changes what stands at the
places of its theme, and what it writes is the worker's own text. -/
theorem sound_new (hsound : pool.Sound out stage) : later.Sound out new := by
  have hcall := turn.call
  generalize hfiles : later.files = files at hcall
  cases hcall with
  | read _ hnone =>
    cases new with
    | waiting | loaded | marked | stopped => trivial
    | writing | filling | finished => cases hnone
  | convert =>
    exact ⟨Convert.write_mem_actions_iff.1,
      fun hwrites => Or.inl (Convert.write_mem_actions_iff.2 hwrites)⟩
  -- directories come into the list of what is to be done, and no texts
  | @act bundle action todo more _ _ _ haction hmore =>
    have hheld := turn.held hsound hsound
    refine ⟨fun hin => ?_, fun hwrites => ?_⟩
    · rcases List.mem_append.1 hin with hin | hin
      · exact absurd hin (hmore _ _)
      · exact hheld.ahead (List.mem_cons_of_mem _ hin)
    · refine (hheld.reached hwrites).imp_left fun hin => List.mem_append_right _ ?_
      exact (List.mem_cons.1 hin).resolve_left fun heq => haction _ _ heq.symm
  -- the file is there from now on, empty until the next call of this worker
  | @opens bundle opened text place todo hopened hfile =>
    have hheld := turn.held hsound hsound
    have hwrites : (opened, text) ∈ writes out bundle := hheld.ahead List.mem_cons_self
    have hput : later.files.at? place = some (.file []) := by
      rw [hfiles, Files.at?_put _ (Files.ne_nil_of_at?_ne hfile), if_pos rfl]
    refine ⟨⟨fun hin => hheld.ahead (List.mem_cons_of_mem _ hin), fun {path other} hother => ?_⟩,
      opened, hwrites, ?_⟩
    · rcases hheld.reached hother with hin | hreached
      · rcases List.mem_cons.1 hin with heq | hin
        · obtain ⟨rfl, rfl⟩ := Action.write.inj heq
          exact Or.inr ⟨place, [], turn.call.grows.locate hopened, hput,
            fun _ => Or.inr ⟨rfl, i, bundle, other, todo, turn.after⟩⟩
        · exact Or.inl hin
      · exact Or.inr hreached
    · rw [turn.call.grows.destination, Files.locate_eq_ok hopened]
  | fill => exact turn.held hsound hsound.1
  | finish => exact turn.held hsound hsound
  | stop => trivial
  | stayFinished => exact turn.held hsound hsound
  | stayStopped => trivial

end Turn

/-- **Every order of calls keeps what is true of the workers.** By induction on the order: one call
is made by one worker, and the others keep their stages. -/
theorem sound_run (settings : Settings) (out : Path) (files : Files) (paths : List Path)
    (order : List Nat) {i : Nat} {stage : Stage}
    (h : ((start files paths).run settings out order).stage? i = some stage) :
    ((start files paths).run settings out order).Sound out stage := by
  -- on the turns that were taken, the last one apart: a turn changes one worker and the files
  induction order using List.reverseRecOn generalizing i stage with
  | nil =>
    have hwaiting : stage = .waiting := by
      obtain ⟨worker, hworker, rfl⟩ := Option.map_eq_some_iff.1 h
      obtain ⟨path, -, rfl⟩ := List.mem_map.1 (List.mem_of_getElem? hworker)
      rfl
    rw [hwaiting]
    trivial
  | append_singleton order j ih =>
    rw [run_concat] at h ⊢
    rcases turn_step settings out ((start files paths).run settings out order) j with
      hidle | ⟨old, new, turn⟩
    · rw [hidle] at h ⊢
      exact ih h
    -- the worker whose turn it is, or one that may find its files overwritten
    · have hold := ih turn.before
      by_cases hi : i = j
      · subst hi
        obtain rfl := Option.some.inj (turn.after.symm.trans h)
        exact turn.sound_new hold
      · rw [turn.others hi] at h
        exact turn.sound_of_sound hold (ih h)

end Pool

end BlockTheme
