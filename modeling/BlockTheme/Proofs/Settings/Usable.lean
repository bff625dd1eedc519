import BlockTheme.Proofs.Binary64.Range
import BlockTheme.Proofs.Settings.Plain
import BlockTheme.Proofs.Settings.Requests

/-!
# Settings that can be used

While the program runs, the settings should stay a JSON object, and a change should either be made or
be refused. Both hold as long as no request breaks them. Two kinds of requests do
(`Settings.Step.Breaks`): the file is read while it holds a JSON value that is no object, or a value is
put that does not fit where it is put (`Settings.Unfit`). Everything else is harmless, so that this is
an equivalence (`Settings.usable_iff`). Reading the file fails in one case, which leaves the settings as
they are: when it nests deeper than there is room for (`Settings.Step.NestsTooDeep`).
-/

namespace BlockTheme.Settings

variable {members : Members Data} {v : Data} {kind : Kind} {room : Nat} {file : Path} {files : Files}
  {store : Store}

/-! ## What a file gives -/

/-- A file holds a JSON value, but not an object. -/
def HoldsOther (file : Path) (room : Nat) (files : Files) : Prop :=
  ∃ text v, files.read file = .ok text ∧ read room text = .ok v ∧ v.members? = none

/-- What the text in a file gives. -/
theorem load?_of_read {text : String} (hread : files.read file = .ok text) :
    load? room (files.read file).toOption
      = match read room text with
        | .ok settings => some settings
        | .error .tooDeep => none
        | .error .malformed => some (.record []) := by
  rw [hread, Except.toOption, load?, Option.map_some]
  rcases read room text with (_ | _) | settings <;> rfl

/-- A file that is missing, that cannot be read, that is no text or no JSON gives an object, too:
the empty one. Only JSON that is no object gives something else. -/
theorem isJson_record_load?_iff {settings : Settings}
    (h : load? room (files.read file).toOption = some settings) :
    (∃ members, settings = .record members ∧ (Data.record members).IsJson)
      ↔ ¬HoldsOther file room files := by
  cases hread : files.read file with
  | error why =>
    rw [hread] at h
    cases h
    refine iff_of_true ⟨[], rfl, Data.isJson_empty⟩ ?_
    rintro ⟨text, v, htext, -⟩
    cases hread.symm.trans htext
  | ok text =>
    rw [load?_of_read hread] at h
    cases hfound : read room text with
    | error why =>
      rw [hfound] at h
      cases why with
      | tooDeep => cases h
      -- a file that is no JSON counts as an empty record, and so does one that cannot be read
      | malformed =>
        cases h
        refine iff_of_true ⟨[], rfl, Data.isJson_empty⟩ ?_
        rintro ⟨other, v, htext, hother, -⟩
        cases hread.symm.trans htext
        cases hfound.symm.trans hother
    | ok found =>
      rw [hfound] at h
      cases h
      have hjson := isJson_read hfound
      cases settings with
      | record members =>
        refine iff_of_true ⟨members, rfl, hjson⟩ ?_
        rintro ⟨other, v, htext, hother, hv⟩
        cases hread.symm.trans htext
        cases hfound.symm.trans hother
        cases hv
      -- any other value in the file is kept as the settings
      | atom | list =>
        refine iff_of_false ?_ fun hnone => hnone ⟨text, _, hread, hfound, rfl⟩
        rintro ⟨members, ⟨⟩, -⟩

/-! ## Values that do not fit -/

/-- A value that does not fit where one of a kind stands. -/
inductive Unfit (room : Nat) : Kind → Data → Prop where
  /-- No integer is infinite. -/
  | infinite (negative : Bool) : Unfit room .integer (.float (.infinity negative))
  /-- Floating-point numbers end somewhere. -/
  | large {n : Int} (hn : Binary64.leastBeyond ≤ n.natAbs) : Unfit room .float (.int n)
  /-- A text is to show a value that lies too deep for that. -/
  | deep {v : Data} (h : Data.reading.shown room v = .error .tooDeep) : Unfit room .text v
  /-- A record is to be made of pairs, and the first one of a pair is no text. -/
  | odd {v : Data} (h : Cast.MakesOddKey v) : Unfit room .record v

theorem floatOfInteger_fails_iff {n : Int} :
    (∃ why, Cast.floatOfInteger n = .error why) ↔ Binary64.leastBeyond ≤ n.natAbs := by
  rw [← Binary64.infinite_ofInt_iff]
  unfold Cast.floatOfInteger
  cases Binary64.ofInt n <;> simp

theorem toInteger_fails_iff :
    (∃ why, Cast.toInteger v.view = .error why) ↔ ∃ negative, v = .float (.infinity negative) := by
  cases v with
  | atom a =>
    cases a with
    | number n =>
      cases n with
      | int n => simp [Cast.toInteger, Data.view, Data.float]
      | float x => cases x <;> simp [Cast.toInteger, Data.view, Data.float]
    | _ => simp [Cast.toInteger, Data.view, Data.float]
  | _ => simp [Cast.toInteger, Data.view, Data.float]

theorem toFloat_fails_iff :
    (∃ why, Cast.toFloat v.view = .error why)
      ↔ ∃ n : Int, v = .int n ∧ Binary64.leastBeyond ≤ n.natAbs := by
  cases v with
  | atom a =>
    cases a with
    | number n =>
      cases n with
      | int n =>
        refine floatOfInteger_fails_iff.trans ⟨fun hn => ⟨n, rfl, hn⟩, ?_⟩
        rintro ⟨m, hm, hlarge⟩
        cases hm
        exact hlarge
      | float x => simp [Cast.toFloat, Data.view, Data.int]
    | flag b =>
      -- the numbers of flags are small
      refine floatOfInteger_fails_iff.trans (iff_of_false ?_ (by simp [Data.int]))
      cases b <;> decide +kernel
    | _ => simp [Cast.toFloat, Data.view, Data.int]
  | _ => simp [Cast.toFloat, Data.view, Data.int]

theorem map_fails_iff {ε α β : Type} {f : α → β} {tried : Except ε α} :
    (∃ why, tried.map f = .error why) ↔ ∃ why, tried = .error why := by
  cases tried <;> simp [Except.map]

/-- **A cast fails for values that do not fit**, but not for those that make a record. These can be
stored, and it is their keys that are no JSON then. -/
theorem toKind_fails_iff :
    (∃ why, Cast.toKind Data.reading room kind v = .error why)
      ↔ Unfit room kind v ∧ kind ≠ .record := by
  have hnever : ∀ {cast : Option (View Data)},
      ¬∃ why, (Except.ok cast : Except Cast.Fault _) = .error why := by
    rintro cast ⟨why, ⟨⟩⟩
  cases kind with
  -- these casts never fail
  | null | flag | list =>
    refine iff_of_false hnever ?_
    rintro ⟨⟨⟩, -⟩
  | record => exact iff_of_false hnever fun h => h.2 rfl
  -- an infinity has no integer
  | integer =>
    refine (map_fails_iff.trans toInteger_fails_iff).trans ⟨?_, ?_⟩
    · rintro ⟨negative, rfl⟩
      exact ⟨.infinite negative, by decide⟩
    · rintro ⟨h, -⟩
      cases h with
      | infinite negative => exact ⟨negative, rfl⟩
  -- an integer can be too large for the format
  | float =>
    refine (map_fails_iff.trans toFloat_fails_iff).trans ⟨?_, ?_⟩
    · rintro ⟨n, rfl, hn⟩
      exact ⟨.large hn, by decide⟩
    · rintro ⟨h, -⟩
      cases h with
      | large hn => exact ⟨_, rfl, hn⟩
  -- data can be nested too deep to be shown
  | text =>
    refine map_fails_iff.trans ?_
    rw [Cast.toText]
    constructor
    · intro hfails
      cases hshown : Data.reading.shown room v with
      | ok s =>
        rw [hshown] at hfails
        exact absurd hfails (by simp)
      | error why =>
        cases why with
        | tooLong =>
          rw [hshown] at hfails
          exact absurd hfails (by simp)
        | tooDeep => exact ⟨.deep hshown, by decide⟩
    · rintro ⟨h, -⟩
      cases h with
      | deep hshown =>
        rw [hshown]
        exact ⟨_, rfl⟩

/-! ## Changes -/

/-- **What comes of a change**: it is refused, and nothing is found at its path, or else it is what
comes of the cast to the kind of the value that is found there. -/
theorem outcome_put (room : Nat) (members : Members Data) (v : Data) (key : Text.Glyphs)
    (rest : List Text.Glyphs) :
    ((put room members v (key :: rest)).1 = .refused
        ∧ valueAt (key :: rest) (.record members) = .null)
      ∨ (put room members v (key :: rest)).1
        = match Cast.toKind Data.reading room (valueAt (key :: rest) (.record members)).kind v with
          | .ok _ => .stored
          | .error why => .ofFault why := by
  induction rest generalizing key members with
  | nil =>
    -- the last key, which is not there and takes any value, or is there and casts it
    refine .inr ?_
    rw [put_singleton, valueAt_cons, valueAt_nil]
    cases members.get? (.text key) with
    | none => rfl
    | some old =>
      have hkind : (Data.reading.view old).kind = old.kind := rfl
      rw [Option.getD_some, Cast.replacement, hkind]
      cases Cast.toKind Data.reading room old.kind v <;> rfl
  | cons next rest ih =>
    rw [put_cons_cons, valueAt_cons]
    cases members.get? (.text key) with
    | none =>
      -- below a key that is missing a new record is made, and there nothing fails
      obtain ⟨changed, hputs⟩ := exists_puts_nil room v next rest
      refine .inr ?_
      dsimp only
      rw [put_eq_stored_iff.2 hputs, Option.getD_none, valueAt_of_members?_eq_none rfl]
      rfl
    | some w =>
      cases w with
      | record inner => exact ih inner next
      | atom | list =>
        -- the path cannot go on in what is no record, and nothing is found there either
        refine .inl ⟨rfl, ?_⟩
        rw [Option.getD_some]
        exact valueAt_of_members?_eq_none rfl next rest

/-- The settings are a JSON object. -/
def IsJsonObject (settings : Settings) : Prop :=
  ∃ members, settings = .record members ∧ (Data.record members).IsJson

/-- A change that is made stores what fits, or leaves no JSON: a record with a key that is no text
is the one value that a change can store and JSON does not have. -/
theorem isJson_iff_of_puts {keys : List Text.Glyphs} {changed : Members Data}
    (hputs : Puts room v keys members changed) (hmembers : (Data.record members).IsJson)
    (hv : v.IsJson) {cast : Option (View Data)}
    (hcast : Cast.toKind Data.reading room (valueAt keys (.record members)).kind v = .ok cast) :
    (Data.record changed).IsJson ↔ ¬Unfit room (valueAt keys (.record members)).kind v := by
  have hstores := hputs.stores
  rw [hputs.isJson_iff hmembers]
  generalize valueAt keys (.record members) = old at hstores hcast
  -- the cast did not fail, so that only a record can be unfit
  have hunfit : Unfit room old.kind v ↔ old.kind = .record ∧ Cast.MakesOddKey v := by
    constructor
    · intro h
      by_cases hrecord : old.kind = .record
      · rw [hrecord] at h
        cases h with
        | odd hodd => exact ⟨hrecord, hodd⟩
      · obtain ⟨why, hwhy⟩ := toKind_fails_iff.2 ⟨h, hrecord⟩
        cases hcast.symm.trans hwhy
    · rintro ⟨hrecord, hodd⟩
      rw [hrecord]
      exact .odd hodd
  rw [hunfit]
  generalize valueAt keys (.record changed) = found at hstores
  cases hstores with
  | fresh =>
    refine iff_of_true hv ?_
    rintro ⟨⟨⟩, -⟩
  | cast hcast' hkind => exact Cast.isJson_toKind_iff hv hcast'
  | asGiven hold hcast' =>
    refine iff_of_true hv ?_
    rintro ⟨hrecord, members', hmembers', -⟩
    rw [hrecord, Cast.toKind, hmembers'] at hcast'
    cases hcast'

/-- **A change of a JSON object is made or refused and leaves a JSON object, exactly if the value fits
where it is put.** -/
theorem set_sound_iff {settings : Settings} {path : Text.Glyphs} (hjson : settings.IsJsonObject)
    (hv : v.IsJson) :
    (((settings.set room path v).1 = .stored ∨ (settings.set room path v).1 = .refused)
        ∧ (settings.set room path v).2.IsJsonObject)
      ↔ ¬Unfit room (settings.get path .null).kind v := by
  obtain ⟨members, rfl, hmembers⟩ := hjson
  rw [get_eq, Data.orDefault_null, set_record]
  cases hkeys : keysOf path with
  | nil => exact absurd hkeys (keysOf_ne_nil path)
  | cons key rest =>
    -- a request that fails leaves a JSON object as it was
    have hkept : (put room members v (key :: rest)).1 ≠ .stored →
        IsJsonObject (.record (put room members v (key :: rest)).2) := by
      intro hfailed
      rw [(put_of_failed rfl hfailed).1]
      exact ⟨members, rfl, hmembers⟩
    -- either something on the way stops the request, or the cast at its end decides
    rcases outcome_put room members v key rest with ⟨hrefused, hnull⟩ | houtcome
    · refine iff_of_true ⟨.inr hrefused, hkept ?_⟩ ?_
      · rw [hrefused]
        decide
      · rw [hnull]
        rintro ⟨⟩
    · cases hcast : Cast.toKind Data.reading room
          (valueAt (key :: rest) (.record members)).kind v with
      | error why =>
        rw [hcast] at houtcome
        refine iff_of_false ?_ fun hfit => hfit (toKind_fails_iff.1 ⟨why, hcast⟩).1
        rw [houtcome]
        rintro ⟨hmade, -⟩
        cases why <;> rcases hmade with hmade | hmade <;> cases hmade
      | ok cast =>
        rw [hcast] at houtcome
        have hputs := put_eq_stored_iff.1 (Prod.ext houtcome rfl :
          put room members v (key :: rest) = (.stored, (put room members v (key :: rest)).2))
        rw [← isJson_iff_of_puts hputs hmembers hv hcast]
        constructor
        · rintro ⟨-, changed, heq, hchanged⟩
          cases heq
          exact hchanged
        · exact fun hchanged => ⟨.inl houtcome, _, rfl, hchanged⟩

/-! ## Requests -/

/-- A request whose value is JSON. -/
def Request.IsJson : Request → Prop
  | .set _ _ v => v.IsJson
  | _ => True

/-- A request breaks the settings: a file is read that holds something else than an object, or a value
is put that does not fit where it is put. -/
def Step.Breaks (file : Path) (step : Step) : Prop :=
  match step.request with
  | .reset room files => HoldsOther file room files
  | .get _ _ => False
  | .set room path v =>
    ∃ old, step.before.read? path .null = some old ∧ Unfit room old.kind v

/-- The settings are a JSON object after a request, and a change is made or refused. -/
structure Step.Sound (file : Path) (step : Step) : Prop where
  isObject : ∃ settings, (step.after file).content? = some settings ∧ settings.IsJsonObject
  answer : ∀ change, step.answer file = .change change → change = .stored ∨ change = .refused

/-- After a request the settings are a JSON object exactly if the request makes one of them. -/
theorem isObject_iff {step : Step} {settings : Settings} (hbefore : step.before.Holds settings) :
    (∃ later, (step.after file).content? = some later ∧ later.IsJsonObject)
      ↔ (step.request.apply file settings).IsJsonObject := by
  have hafter := (hbefore.serve file step.request).content?_eq
  rw [Step.after, hafter]
  simp

/-- **A request to a JSON object is served as it should be, unless it breaks the settings.** One
case for each way in which it can do so. -/
theorem sound_iff_not_breaks {step : Step} {settings : Settings}
    (hbefore : step.before.Holds settings) (hjson : settings.IsJsonObject)
    (hrequest : step.request.IsJson) : step.Sound file ↔ ¬step.Breaks file := by
  have hsound : step.Sound file ↔ (step.request.apply file settings).IsJsonObject
      ∧ ∀ change, step.answer file = .change change → change = .stored ∨ change = .refused := by
    rw [← isObject_iff hbefore]
    exact ⟨fun h => ⟨h.1, h.2⟩, fun h => ⟨h.1, h.2⟩⟩
  rw [hsound]
  obtain ⟨before, request⟩ := step
  cases request with
  | reset room files =>
    have hanswer : ∀ change, Step.answer file ⟨before, .reset room files⟩ = .change change →
        change = .stored ∨ change = .refused := by
      rintro change ⟨⟩
    rw [and_iff_left hanswer]
    show IsJsonObject ((load? room (files.read file).toOption).getD settings)
      ↔ ¬HoldsOther file room files
    cases hload : load? room (files.read file).toOption with
    | some loaded => exact isJson_record_load?_iff hload
    | none =>
      -- the file was not read to its end
      refine iff_of_true hjson ?_
      rintro ⟨text, v, htext, hread, -⟩
      rw [load?_of_read htext, hread] at hload
      cases hload
  | get path default =>
    refine iff_of_true ⟨hjson, ?_⟩ id
    rintro change ⟨⟩
  | set room path v =>
    obtain ⟨places, own, hbeside⟩ := hbefore.give v
    have hanswer : Step.answer file ⟨before, .set room path v⟩
        = .change (settings.set room path v).1 :=
      congrArg Answer.change (hbeside.set room path).1
    show _ ↔ ¬∃ old, before.read? path .null = some old ∧ Unfit room old.kind v
    rw [hbefore.read?_eq, hanswer]
    simp only [Option.some.injEq, exists_eq_left', Answer.change.injEq, forall_eq']
    rw [← set_sound_iff hjson hrequest, and_comm]
    rfl

/-- The same for all requests that are served one after the other. Up to the first step that breaks
the settings they are an object, which is what the next step needs. -/
theorem steps_sound_iff {settings : Settings} {requests : List Request}
    (hstore : store.Holds settings) (hjson : settings.IsJsonObject)
    (hrequests : ∀ request ∈ requests, request.IsJson) :
    (∀ step ∈ steps file store requests, step.Sound file)
      ↔ ∀ step ∈ steps file store requests, ¬step.Breaks file := by
  induction requests generalizing store settings with
  | nil => simp [steps]
  | cons request rest ih =>
    obtain ⟨hrequest, hrest⟩ := List.forall_mem_cons.1 hrequests
    have hbefore : (Step.mk store request).before.Holds settings := hstore
    rw [steps, List.forall_mem_cons, List.forall_mem_cons,
      ← sound_iff_not_breaks hbefore hjson hrequest]
    -- the settings after the first request are an object, if it is served as it should be
    exact and_congr_right fun hsound =>
      ih (hstore.serve file request) ((isObject_iff hbefore).1 hsound.isObject) hrest

/-- A file is to be read that nests deeper than there is room for. -/
def Step.NestsTooDeep (file : Path) (step : Step) : Prop :=
  match step.request with
  | .reset room files => ∃ text, files.read file = .ok text ∧ read room text = .error .tooDeep
  | _ => False

/-- If the file is to be read, then it is. -/
def Step.IsDone (file : Path) (step : Step) : Prop :=
  ∀ done, step.answer file = .reset done → done = true

/-- Only files that nest too deep are not read. All other failures of a file count as settings that
say nothing. -/
theorem isDone_iff (step : Step) : step.IsDone file ↔ ¬step.NestsTooDeep file := by
  obtain ⟨before, request⟩ := step
  cases request with
  | get | set =>
    refine iff_of_true ?_ id
    rintro done ⟨⟩
  | reset room files =>
    show (∀ done, Answer.reset (before.reset room file files).1 = .reset done → done = true)
      ↔ ¬∃ text, files.read file = .ok text ∧ read room text = .error .tooDeep
    simp only [Answer.reset.injEq, forall_eq']
    rw [Store.reset]
    cases hread : files.read file with
    | error why => simp [Except.toOption, load?]
    | ok text =>
      rw [← hread, load?_of_read hread]
      rcases hfound : read room text with (_ | _) | settings <;> simp [hread, hfound]

/-- **The settings are a JSON object after every request, and every change is made or refused,** exactly
if at no time a file is read that holds a JSON value other than an object, and no value is put that
does not fit where it is put. And every time the settings are to be read again they are, exactly if
their file never nests too deep. The values of the requests are JSON, and the first of the requests is
normally to read the file. -/
theorem usable_iff (file : Path) {requests : List Request}
    (hrequests : ∀ request ∈ requests, request.IsJson) :
    ((∀ step ∈ steps file .empty requests, step.Sound file)
        ↔ ∀ step ∈ steps file .empty requests, ¬step.Breaks file)
      ∧ ((∀ step ∈ steps file .empty requests, step.IsDone file)
        ↔ ∀ step ∈ steps file .empty requests, ¬step.NestsTooDeep file) :=
  ⟨steps_sound_iff Store.holds_empty ⟨[], rfl, Data.isJson_empty⟩ hrequests,
    forall₂_congr fun step _ => isDone_iff step⟩

/-- The settings file with a text in it. -/
def settingsFiles (text : String) : Files :=
  ⟨[], [([], .directory), (["settings.json"], .file (Text.Utf8.encode text.toList))]⟩

/-- After a file was read that holds null, nothing can be changed. -/
theorem usable_iff_null :
    (∀ request ∈ [Request.reset 0 (settingsFiles "null"), .set 0 "a" (.text "1")], request.IsJson)
      ∧ ¬∀ step ∈ steps settingsFile .empty
          [.reset 0 (settingsFiles "null"), .set 0 "a" (.text "1")], step.Sound settingsFile := by
  have hrequests : ∀ request ∈ [Request.reset 0 (settingsFiles "null"), .set 0 "a" (.text "1")],
      request.IsJson := by
    simp [Request.IsJson, Data.text, Data.IsJson.atom]
  have hfile : (settingsFiles "null").read settingsFile = .ok "null" := by rfl
  refine ⟨hrequests, fun hsound => ?_⟩
  have hbreaks := (usable_iff settingsFile hrequests).1.1 hsound
  exact hbreaks _ List.mem_cons_self ⟨"null", .null, hfile, by rfl, rfl⟩

/-- One half of a character is a text, and so no object. -/
example : (read 0 "\"\\ud800\"").toOption.map Data.kind = some .text := by decide +kernel

end BlockTheme.Settings
