import BlockTheme.Proofs.Command.Arguments
import BlockTheme.Proofs.Command.Endings
import BlockTheme.Proofs.Convert.Directories
import BlockTheme.Proofs.Document.Written

/-!
# What earlier calls change for a conversion

The calls in one process share their settings, and a conversion that is called with `--no-reconcile`
switches recovery off in them, for itself and for all later calls. Nothing else is ever changed there
(`Command.settings_after`). So a conversion writes what it would write as the first call of a process,
or else what it would write as the first call if it had the switch as well (`Command.theme?_after`),
and two histories that agree on the switch lead to the same theme
(`Command.conversions_share_theme`). Histories that do not agree on it can make a difference
(`Command.conversion_depends_on_history`).
-/

namespace BlockTheme.Command

variable {settings : Settings} {files files' : Files} {packers packers' : Packers}
  {logLevel : Option String}

/-! ## Switching recovery off -/

/-- The path of the flag for recovery. -/
def recoveryPath : String := "reconciler.enabled"

/-- The settings with recovery switched off, as far as they let it. -/
def switchedOff (settings : Settings) : Settings := (settings.set 0 recoveryPath (.flag false)).2

/-- The settings after calls of which some may have switched recovery off. -/
def settingsAfter (off : Bool) (settings : Settings) : Settings :=
  if off then switchedOff settings else settings

/-- Setting the flag again changes nothing, whatever stands in its place in the settings. -/
theorem switchedOff_switchedOff (settings : Settings) :
    switchedOff (switchedOff settings) = switchedOff settings := by
  rw [switchedOff, switchedOff, Settings.set_again]

/-- Recovery is switched off once and for all. -/
theorem settingsAfter_settingsAfter (off later : Bool) (settings : Settings) :
    settingsAfter later (settingsAfter off settings) = settingsAfter (off || later) settings := by
  cases off with
  | false => rfl
  | true =>
    cases later with
    | false => rfl
    | true => exact switchedOff_switchedOff settings

theorem isSome_members?_settingsAfter (off : Bool) (settings : Settings) :
    (settingsAfter off settings).members?.isSome = settings.members?.isSome := by
  cases off with
  | false => rfl
  | true =>
    unfold settingsAfter switchedOff
    rcases Settings.puts_or_eq_self settings 0 recoveryPath (.flag false) with
      ⟨members, changed, hrecord, hset, -⟩ | ⟨change, hset⟩
    · rw [hset, hrecord]
      rfl
    · rw [hset]
      rfl

/-- The levels of messages stand elsewhere in the settings, so a switch for recovery that an earlier
call has set does not change them. What is read for the levels is read at paths apart from that of
the switch. -/
theorem levels_settingsAfter (off : Bool) (settings : Settings) (logLevel : Option String) :
    levels (settingsAfter off settings) logLevel = levels settings logLevel := by
  have happart : ∀ other ∈ ["debug.level", "debug.module_levels", "debug.silenced"],
      Settings.Apart recoveryPath other := by
    unfold Settings.Apart
    decide
  have hget : ∀ other ∈ ["debug.level", "debug.module_levels", "debug.silenced"], ∀ default,
      (settingsAfter off settings).get other default = settings.get other default := by
    intro other hother default
    cases off with
    | false => rfl
    | true => exact Settings.get_set_of_apart (happart other hother) 0 (.flag false) default
  rw [levels, levels, generalLevel, generalLevel, hget _ (by simp), hget _ (by simp),
    hget _ (by simp)]

/-- Recovery can be switched off in all settings that are a record, if only in name. The change
replaces a flag or something else that stood there; it has no cast that fails, and where there is no
section for the recovery it makes one. -/
theorem settingsFor_eq (settings : Settings) (noRecovery : Bool) :
    settingsFor settings noRecovery
      = if noRecovery && settings.members?.isNone then .error .settings
        else .ok (settingsAfter noRecovery settings) := by
  cases noRecovery with
  | false => rfl
  | true =>
    cases settings with
    | record members =>
      -- setting the flag fails only if there is no record, other than for lack of room
      have hrecord : (Settings.set (.record members) 0 recoveryPath (.flag false)).1 ≠ .noRecord := by
        rw [Ne, Settings.set_eq_noRecord_iff]
        exact Option.some_ne_none _
      show settingsFor (.record members) true = .ok (switchedOff (.record members))
      rw [settingsFor, if_neg (by decide), switchedOff, ← recoveryPath]
      rcases hset : Settings.set (.record members) 0 recoveryPath (.flag false) with ⟨change, after⟩
      rw [hset] at hrecord
      cases change with
      | noRecord => exact absurd rfl hrecord
      | _ => rfl
    | _ => rfl

/-! ## Conversions -/

/-- What a call says that has the command for conversions. -/
structure Conversion where
  logLevel : Option String
  document : String
  html : Option String
  css : Option String
  out : Option String
  noRecovery : Bool

/-- The call that says this. -/
def Conversion.invocation (c : Conversion) : Invocation :=
  ⟨c.logLevel, some (.convert c.document c.html c.css c.out c.noRecovery)⟩

/-- The theme that a conversion writes, and the directory it goes to; nothing if the call ends before
it writes anything. -/
def Session.theme? (s : Session) (c : Conversion) : Option (Path × Bundle) :=
  match levels s.settings c.logLevel, settingsFor s.settings c.noRecovery with
  | .ok _, .ok settings =>
    (bundleOf { s with settings } c.document c.html c.css).toOption.map fun bundle =>
      (outOf s.files c.out, bundle)
  | _, _ => none

/-- The files after a theme was written, as far as that went. -/
def writeTheme (files : Files) : Option (Path × Bundle) → Files
  | none => files
  | some (out, bundle) => (Convert.writeBundle files out bundle).1

/-- All that a conversion does is to write the theme that is made, if one is. -/
theorem session_runConvert (s : Session) (document : String) (html css out : Option String) :
    (runConvert s document html css out).1
      = ⟨writeTheme s.files ((bundleOf s document html css).toOption.map fun bundle =>
          (outOf s.files out, bundle)), s.settings, s.packers⟩ := by
  unfold runConvert
  cases bundleOf s document html css with
  | error why => rfl
  | ok bundle =>
    show _ = (⟨(Convert.writeBundle s.files (outOf s.files out) bundle).1, s.settings, s.packers⟩ : Session)
    dsimp only
    rcases Convert.writeBundle s.files (outOf s.files out) bundle with ⟨later, _ | why⟩ <;> rfl

/-- The session after a task, if there is one. -/
def Session.afterTask (s : Session) : Option Task → Session
  | none => s
  | some task => (task.run s).1

/-- A call carries its task out, unless its levels do not exist. The levels are set before the task
begins, so nothing of it is done if this fails. -/
theorem session_run {s : Session} {args : List String} {task : Option Task}
    (hread : read args = .ok ⟨logLevel, task⟩) :
    (s.run args).1 = if (levels s.settings logLevel).isOk then s.afterTask task else s := by
  rw [Session.run, hread]
  dsimp only
  cases levels s.settings logLevel with
  | error why => rfl
  | ok found =>
    cases task with
    | none => rfl
    | some task =>
      show _ = (task.run s).1
      dsimp only
      rcases task.run s with ⟨later, why | ⟨output, code⟩⟩ <;> rfl

/-- **What a conversion does to the files is to write its theme.** If there is none, because the
call ends before that, it leaves them as they are. -/
theorem files_run {s : Session} {args : List String} {c : Conversion}
    (hread : read args = .ok c.invocation) :
    (s.run args).1.files = writeTheme s.files (s.theme? c) := by
  rw [session_run hread, Session.theme?]
  cases levels s.settings c.logLevel with
  | error why => rfl
  | ok found =>
    show (Task.run s (.convert c.document c.html c.css c.out c.noRecovery)).1.files = _
    rw [Task.run]
    cases settingsFor s.settings c.noRecovery with
    | error why => rfl
    | ok settings =>
      dsimp only
      rw [session_runConvert]

/-! ## Settings after calls -/

/-- Whether a task is a conversion that is to switch recovery off. -/
def Task.asksNoRecovery : Task → Bool
  | .convert _ _ _ _ noRecovery => noRecovery
  | .batch _ _ _ _ => false
  | .summary _ => false

/-- Whether a call switches recovery off. It does so before the document is read, so that it does not
matter whether the conversion succeeds. -/
def switchesOff (settings : Settings) (args : List String) : Bool :=
  match read args with
  | .ok ⟨logLevel, some task⟩ =>
    (levels settings logLevel).isOk && (task.asksNoRecovery && settings.members?.isSome)
  | _ => false

/-- For a conversion, it is its own switch that counts. -/
theorem switchesOff_of_read {args : List String} {c : Conversion}
    (hread : read args = .ok c.invocation) (settings : Settings) :
    switchesOff settings args
      = ((levels settings c.logLevel).isOk && (c.noRecovery && settings.members?.isSome)) := by
  rw [switchesOff, hread]
  rfl

/-- Earlier calls do not change what a call does to the switch: whether its levels exist is decided
by other settings. -/
theorem switchesOff_settingsAfter (off : Bool) (settings : Settings) :
    switchesOff (settingsAfter off settings) = switchesOff settings := by
  funext args
  unfold switchesOff
  simp only [levels_settingsAfter, isSome_members?_settingsAfter]

/-- A conversion of many documents has its settings from the session and leaves them alone. Its
workers have settings of their own. -/
theorem settings_runBatch (s : Session) (directory : String) (out : Option String)
    (workers : Option Int) (table : Option String) :
    (runBatch s directory out workers table).1.settings = s.settings := by
  unfold runBatch
  dsimp only
  split
  · rfl
  · rfl
  · split
    · rfl
    · split
      · rfl
      · split <;> rfl

theorem settings_runSummary (s : Session) (document : String) :
    (runSummary s document).1.settings = s.settings := by
  unfold runSummary
  split <;> rfl

/-- Of the three tasks only a conversion changes settings, and only with its switch. A summary and a
batch read them at most. -/
theorem Task.settings_run (s : Session) (task : Task) :
    (task.run s).1.settings
      = settingsAfter (task.asksNoRecovery && s.settings.members?.isSome) s.settings := by
  cases task with
  | convert document html css out noRecovery =>
    rw [Task.run, settingsFor_eq, Task.asksNoRecovery]
    cases noRecovery with
    | false =>
      show (runConvert s document html css out).1.settings = s.settings
      rw [session_runConvert]
    -- the flag is set before the document is looked for
    | true =>
      cases hrecord : s.settings.members? with
      | none => rfl
      | some members =>
        show (runConvert _ document html css out).1.settings = _
        rw [session_runConvert]
        rfl
  | batch directory out workers table => exact settings_runBatch s directory out workers table
  | summary document => exact settings_runSummary s document

/-- **A call changes nothing in the settings but the flag for recovery.** And that only if it is for
a conversion, has the switch, and has levels that exist. -/
theorem settings_run (s : Session) (args : List String) :
    (s.run args).1.settings = settingsAfter (switchesOff s.settings args) s.settings := by
  unfold switchesOff
  cases hread : read args with
  -- arguments that cannot be read end the call before it does anything
  | error exit =>
    rw [Session.run, hread]
    rfl
  | ok invocation =>
    obtain ⟨logLevel, task⟩ := invocation
    rw [session_run hread]
    cases task with
    | none => exact congrArg Session.settings (ite_self s)
    | some task =>
      -- so does a level that does not exist
      show _ = settingsAfter ((levels s.settings logLevel).isOk
        && (task.asksNoRecovery && s.settings.members?.isSome)) s.settings
      cases (levels s.settings logLevel).isOk with
      | false => rfl
      | true => exact task.settings_run s

/-- A session after calls, one after the other. -/
def Session.after (s : Session) (calls : List (List String)) : Session :=
  calls.foldl (fun s args => (s.run args).1) s

theorem Session.after_cons (s : Session) (args : List String) (rest : List (List String)) :
    s.after (args :: rest) = (s.run args).1.after rest := rfl

/-- **All that calls leave behind in the settings is whether one of them switched recovery off.** By
induction on the calls. -/
theorem settings_after (s : Session) (history : List (List String)) :
    (s.after history).settings
      = settingsAfter (history.any (switchesOff s.settings)) s.settings := by
  induction history generalizing s with
  | nil => rfl
  | cons args rest ih =>
    rw [Session.after_cons, ih, settings_run, switchesOff_settingsAfter,
      settingsAfter_settingsAfter, List.any_cons]

/-! ## Conversions after calls -/

/-- A call switches recovery off only in settings that are a record. -/
theorem isSome_of_switchesOff {args : List String} (h : switchesOff settings args = true) :
    settings.members?.isSome = true := by
  unfold switchesOff at h
  split at h
  · simp only [Bool.and_eq_true] at h
    exact h.2.2
  · cases h

/-- An earlier call with the switch has the effect of the switch. The hypothesis holds after any
calls: without a record none of them switches anything off. -/
theorem settingsFor_settingsAfter {off : Bool}
    (hoff : off = true → settings.members?.isSome = true) (noRecovery : Bool) :
    settingsFor (settingsAfter off settings) noRecovery
      = settingsFor settings (off || noRecovery) := by
  rw [settingsFor_eq, settingsFor_eq, settingsAfter_settingsAfter, ← Option.not_isSome,
    ← Option.not_isSome, isSome_members?_settingsAfter]
  cases off with
  | false => rfl
  | true =>
    rw [hoff rfl]
    cases noRecovery <;> rfl

/-- **A conversion after calls has the theme that it has as the first call,** but with the switch if
one of those calls switched recovery off. -/
theorem theme?_after (s : Session) (history : List (List String)) (c : Conversion) :
    (s.after history).theme? c
      = Session.theme? ⟨(s.after history).files, s.settings, s.packers⟩
          { c with noRecovery := history.any (switchesOff s.settings) || c.noRecovery } := by
  have hoff : history.any (switchesOff s.settings) = true → s.settings.members?.isSome = true := by
    intro h
    obtain ⟨args, -, hargs⟩ := List.any_eq_true.1 h
    exact isSome_of_switchesOff hargs
  unfold Session.theme?
  rw [settings_after, levels_settingsAfter, settingsFor_settingsAfter hoff]
  rfl

/-- Two file systems hold the same in all places that a conversion reads, and calls are made from the
same directory in them. -/
structure Conversion.SameInputs (c : Conversion) (files files' : Files) : Prop where
  current : files.current = files'.current
  document : files.read (Path.ofText c.document) = files'.read (Path.ofText c.document)
  html : readNamed files c.html = readNamed files' c.html
  css : readNamed files c.css = readNamed files' c.css

/-- The same files give a conversion the same inputs. -/
theorem Conversion.SameInputs.refl (c : Conversion) (files : Files) : c.SameInputs files files :=
  ⟨rfl, rfl, rfl, rfl⟩

/-- The theme depends on nothing else in the files: a conversion reads its document and the two
texts that are named beside it, and it looks where the output goes. -/
theorem Conversion.SameInputs.theme?_eq {c : Conversion} (h : c.SameInputs files files')
    (settings : Settings) (noRecovery : Bool) :
    Session.theme? ⟨files, settings, packers⟩ { c with noRecovery }
      = Session.theme? ⟨files', settings, packers'⟩ { c with noRecovery } := by
  have hbundle : ∀ settings, bundleOf ⟨files, settings, packers⟩ c.document c.html c.css
      = bundleOf ⟨files', settings, packers'⟩ c.document c.html c.css := by
    intro settings
    unfold bundleOf Convert.load
    rw [h.document, h.html, h.css]
  have hout : outOf files c.out = outOf files' c.out := by
    unfold outOf defaultOut
    rw [h.current]
  unfold Session.theme?
  simp only [hbundle, hout]

/-! ## What is written -/

/-- A document is found if its file can be read and its text is that of a document. -/
theorem load_of_read {path : Path} {text : String} {document : Document}
    (hread : files.read path = .ok text) (hload : Document.load text = .valid document) :
    Convert.load files path = .ok document := by
  rw [Convert.load, hread]
  dsimp only
  rw [hload]

/-- A document that stands in a file as it is written is found there. -/
theorem load_of_encode {path : Path} {place : Location} {naming : Schema.Naming}
    {document : Document} (hregular : document.Regular)
    (hdepth : (document.json naming).depth ≤ Document.depthLimit)
    (hlocate : files.locate path = .ok place)
    (hfile : files.at? place
      = some (.file (Text.Utf8.encode (document.json naming).compact.toList))) :
    Convert.load files path = .ok document := by
  have hlines : '\r' ∉ (document.json naming).compact.toList := Json.not_mem_compact (by decide) _
  exact load_of_read (Files.read_of_encode hlocate hfile hlines)
    (Document.load_compact naming hregular hdepth)

/-- A file that is named on the command line, if the name is not empty: the empty name counts as
none. -/
theorem readNamed_of_read {name text : String} (hname : name ≠ "")
    (hread : files.read (Path.ofText name) = .ok text) :
    readNamed files (some name) = .ok (some text) := by
  unfold readNamed
  split
  · next heq => cases heq
  · next heq => exact absurd (Option.some.inj heq) hname
  · next path _ heq =>
    obtain rfl := Option.some.inj heq
    rw [hread]

/-- A conversion has a theme if all that it reads is there and nothing fails. The hypotheses are the
steps of the task in their order, from the levels of messages to the conversion itself. -/
theorem theme?_of_convert {s : Session} {c : Conversion} {loaded : Document}
    {markup sheet : Option String} {bundle : Bundle}
    (hlevels : (levels s.settings c.logLevel).isOk = true)
    (hsettings : settingsFor s.settings c.noRecovery = .ok settings)
    (hload : Convert.load s.files (Path.ofText c.document) = .ok loaded)
    (hhtml : readNamed s.files c.html = .ok markup) (hcss : readNamed s.files c.css = .ok sheet)
    (hconvert : convert settings loaded markup sheet = .ok bundle) :
    s.theme? c = some (outOf s.files c.out, bundle) := by
  -- all that the conversion reads is read from these files
  have hbundle : bundleOf { s with settings } c.document c.html c.css = .ok bundle := by
    unfold bundleOf
    simp only [hload, hhtml, hcss, bind, Except.bind, hconvert]
  rw [Session.theme?, hsettings]
  cases hfound : levels s.settings c.logLevel with
  | error why =>
    rw [hfound] at hlevels
    cases hlevels
  | ok found =>
    dsimp only
    rw [hbundle]
    rfl

/-- After a conversion every text of its theme stands in its place, if writing it did not fail. -/
theorem at?_run {s : Session} {args : List String} {c : Conversion} {out : Path} {bundle : Bundle}
    {name text : String} (hread : read args = .ok c.invocation)
    (htheme : s.theme? c = some (out, bundle)) (hmade : bundle.Made)
    (hdone : (Convert.writeBundle s.files out bundle).2 = none)
    (hfile : (name, text) ∈ bundle.files) :
    (s.run args).1.files.at? (Bundle.home s.files out bundle.slug name)
      = some (.file (Text.Utf8.encode text.toList)) := by
  rw [files_run hread, htheme]
  exact (hmade.confined s.files out).written hdone hfile

/-! ## A page that can get a class -/

/-- A page with one paragraph, and a stylesheet with one class. -/
def plainPage : Document where
  metadata := ⟨"T", none, none⟩
  tokens := { colors := ⟨"", "", "", "", none, none⟩ }
  header := none
  body := [
    { intent := "generic"
      layout := ⟨.constrained, none, none, none, none⟩
      children := [⟨"paragraph", some "B", {}, none, none, none, none⟩]
      motion := none
      background := none
      style := none
      className := none }]
  footer := none
  stylesheet := some "._"

/-- Markup in which the paragraph has the class. -/
def plainMarkup : String := "<p class=_>B</p>"

/-- The page as it is written to a file. -/
def plainText : String := (plainPage.json .camelCase).compact

/-- The page and its markup in the current directory. -/
def plainFiles : Files :=
  ⟨["w"], [(["w"], .directory), (["w", "a.json"], .file (Text.Utf8.encode plainText.toList)),
    (["w", "a.html"], .file (Text.Utf8.encode plainMarkup.toList))]⟩

/-- The first call finds them, and the settings that come with the converter. -/
abbrev plainSession : Session := ⟨plainFiles, Settings.shipped, Packers.missing⟩

/-- The conversion of the page with its markup. -/
def plainConversion : Conversion := ⟨none, "a.json", some "a.html", none, some "o", false⟩

theorem regular_plainPage : plainPage.Regular := by
  refine ⟨List.cons_ne_nil _ _, fun s hs => ?_⟩
  obtain rfl := List.mem_singleton.1 (show s ∈ plainPage.body from hs)
  refine ⟨by simp, fun node hnode => ?_, by simp⟩
  obtain rfl := List.mem_singleton.1 hnode
  intro m hm
  obtain rfl : m = _ := List.mem_singleton.1 hm
  exact ⟨⟨by simp, by simp⟩, by simp⟩

theorem locate_plainFiles :
    ∀ name ∈ ["a.json", "a.html"], plainFiles.locate (Path.ofText name) = .ok ["w", name] := by
  decide +kernel

theorem load_plainFiles : Convert.load plainFiles (Path.ofText "a.json") = .ok plainPage := by
  have hdepth : (plainPage.json .camelCase).depth ≤ Document.depthLimit := by decide
  exact load_of_encode regular_plainPage hdepth (locate_plainFiles "a.json" (by simp)) rfl

theorem readNamed_plainFiles : readNamed plainFiles (some "a.html") = .ok (some plainMarkup) := by
  have hlocate := locate_plainFiles "a.html" (by simp)
  have hlines : '\r' ∉ plainMarkup.toList := by decide
  exact readNamed_of_read (by decide) (Files.read_of_encode hlocate rfl hlines)

/-- The theme of the page's conversion as a first call, as `theme?_of_convert` gives it. Only the
conversion is left open, since it depends on the switch. -/
theorem theme?_plainConversion {noRecovery : Bool} {bundle : Bundle}
    (hconvert : convert (settingsAfter noRecovery Settings.shipped) plainPage (some plainMarkup) none
      = .ok bundle) :
    Session.theme? plainSession { plainConversion with noRecovery }
      = some (⟨0, ["o"]⟩, bundle) := by
  have hlevels : (levels Settings.shipped none).isOk = true := by rfl
  have hsettings : settingsFor Settings.shipped noRecovery
      = .ok (settingsAfter noRecovery Settings.shipped) := by
    rw [settingsFor_eq]
    exact if_neg (by cases noRecovery <;> decide)
  have hout : outOf plainFiles (some "o") = ⟨0, ["o"]⟩ := by rfl
  rw [← hout]
  exact theme?_of_convert hlevels hsettings load_plainFiles readNamed_plainFiles rfl hconvert

/-- Without recovery the page stays as it is. -/
theorem convert_plainPage :
    convert (settingsAfter true Settings.shipped) plainPage (some plainMarkup) none
      = .ok (Bundle.ofDocument plainPage none) := by
  have hoff : Convert.isRecovering (settingsAfter true Settings.shipped) = false := by rfl
  rw [convert, Convert.prepared, hoff]
  rfl

/-- A call for a document that is missing, which switches recovery off all the same. -/
def missingCall : List String := ["convert", "b.json", "--no-reconcile"]

/-- What it says. -/
def missingConversion : Conversion := ⟨none, "b.json", none, none, none, true⟩

/-- The call for the conversion of the page. -/
def plainCall : List String := ["convert", "a.json", "--html", "a.html", "-o", "o"]

theorem read_missingCall : read missingCall = .ok missingConversion.invocation := by
  have hclear : ∀ arg ∈ missingCall, (mainGrammar.candidates arg.toList).length ≤ 1 := by decide
  exact (read_command .convert hclear).trans (by rfl)

theorem read_plainCall : read plainCall = .ok plainConversion.invocation := by
  have hclear : ∀ arg ∈ plainCall, (mainGrammar.candidates arg.toList).length ≤ 1 := by decide
  exact (read_command .convert hclear).trans (by rfl)

/-- The call for the missing document leaves the files as they are. It switches recovery off and
then fails, and this is how it can act on a later call at all. -/
theorem files_run_missingCall {s : Session} (hfiles : s.files = plainFiles) :
    (s.run missingCall).1.files = plainFiles := by
  have hload : (Convert.load plainFiles (Path.ofText "b.json")).toOption.isNone = true := by
    decide +kernel
  -- there is no document, so there is no theme, with recovery or without it
  have hbundle : ∀ settings,
      (bundleOf { s with settings } "b.json" none none).toOption = none := by
    intro settings
    unfold bundleOf
    rw [hfiles]
    cases hfound : Convert.load plainFiles (Path.ofText "b.json") with
    | ok document =>
      rw [hfound] at hload
      cases hload
    | error why => rfl
  have htheme : s.theme? missingConversion = none := by
    unfold Session.theme?
    split
    · show Option.map _ (bundleOf _ "b.json" none none).toOption = none
      rw [hbundle]
      rfl
    · rfl
  rw [files_run read_missingCall, htheme]
  exact hfiles

/-- So it does however often it is made. -/
theorem files_after_missingCall {s : Session} (hfiles : s.files = plainFiles) (n : Nat) :
    (s.after (List.replicate n missingCall)).files = plainFiles := by
  induction n generalizing s with
  | zero => exact hfiles
  | succ n ih =>
    rw [List.replicate_succ, Session.after_cons]
    exact ih (files_run_missingCall hfiles)

/-- The call for the missing document switches recovery off. -/
theorem switchesOff_missingCall : switchesOff Settings.shipped missingCall = true := by
  rw [switchesOff_of_read read_missingCall]
  rfl

/-- With recovery the paragraph gets its class, which changes the template. The class is the only
one of the stylesheet, and the paragraph of the markup has it. -/
theorem exists_convert_plainPage :
    ∃ document, convert (settingsAfter false Settings.shipped) plainPage (some plainMarkup) none
        = .ok (Bundle.ofDocument document none)
      ∧ document.slug = "t"
      ∧ Markup.writeAll document.templates.index ≠ Markup.writeAll plainPage.templates.index
      ∧ (Convert.writeBundle plainFiles ⟨0, ["o"]⟩ (Bundle.ofDocument document none)).2 = none := by
  -- what the recovery gives is not written out here: only these three things about it are needed
  have hslug : (Convert.prepared Settings.shipped plainPage (some plainMarkup) none).toOption.any
      (fun document => document.slug == "t") = true := by
    decide +kernel
  have hlength : (Convert.prepared Settings.shipped plainPage (some plainMarkup) none).toOption.any
      (fun document => (Markup.writeAll document.templates.index).length
        != (Markup.writeAll plainPage.templates.index).length) = true := by
    decide +kernel
  have hdone : (Convert.prepared Settings.shipped plainPage (some plainMarkup) none).toOption.any
      (fun document => (Convert.writeBundle plainFiles ⟨0, ["o"]⟩
        (Bundle.ofDocument document none)).2.isNone) = true := by
    decide +kernel
  cases hprepared : Convert.prepared Settings.shipped plainPage (some plainMarkup) none with
  | error why =>
    rw [hprepared] at hslug
    cases hslug
  | ok document =>
    rw [hprepared, Except.toOption, Option.any_some] at hslug hlength hdone
    have hlength' : (Markup.writeAll document.templates.index).length
        ≠ (Markup.writeAll plainPage.templates.index).length := bne_iff_ne.1 hlength
    refine ⟨document, ?_, beq_iff_eq.1 hslug, fun hsame => hlength' (congrArg List.length hsame),
      Option.isNone_iff_eq_none.1 hdone⟩
    show (Convert.prepared Settings.shipped plainPage (some plainMarkup) none).map _ = _
    rw [hprepared]
    rfl

/-- The template of the page after a conversion, of the page as it is or of one that was recovered.
The conversion is the one that is made as a last call in both histories. -/
theorem at?_index {s : Session} {document : Document} (hfiles : s.files = plainFiles)
    (htheme : s.theme? plainConversion = some (⟨0, ["o"]⟩, Bundle.ofDocument document none))
    (hslug : document.slug = "t")
    (hdone : (Convert.writeBundle plainFiles ⟨0, ["o"]⟩
      (Bundle.ofDocument document none)).2 = none) :
    (s.run plainCall).1.files.at? ["w", "o", "t", "templates", "index.html"]
      = some (.file (Text.Utf8.encode (Markup.writeAll document.templates.index))) := by
  have hname : (Bundle.ofDocument document none).slug = "t" := by rw [Bundle.ofDocument, hslug]
  have hhome : Bundle.home plainFiles ⟨0, ["o"]⟩ "t" "templates/index.html"
      = ["w", "o", "t", "templates", "index.html"] := by rfl
  have hfile : ("templates/index.html", Markup.allToText document.templates.index)
      ∈ (Bundle.ofDocument document none).files := by
    simp [Bundle.ofDocument, Bundle.filesOf]
  have hat := at?_run read_plainCall htheme ⟨document, none, rfl⟩ (hfiles ▸ hdone) hfile
  rw [hname, hfiles, hhome, Markup.allToText, String.toList_ofList] at hat
  exact hat

/-! ## Two histories -/

/-- **Conversions depend on earlier calls only through the switch for recovery.** In two processes
with the same settings any calls are made, and then the same conversion, which reads the same inputs.
If it switches recovery off itself, or if it was switched off by earlier calls either in both processes
or in none, then one theme is written in both of them. It is the theme of the conversion as a first
call, which has the switch if it was given it or if recovery was switched off before. -/
theorem conversions_share_theme {history history' : List (List String)} {args : List String}
    {c : Conversion} (hread : read args = .ok c.invocation)
    (hinputs : c.SameInputs (Session.after ⟨files, settings, packers⟩ history).files
      (Session.after ⟨files', settings, packers'⟩ history').files)
    (hoff : c.noRecovery = true
      ∨ history.any (switchesOff settings) = history'.any (switchesOff settings)) :
    ∃ theme : Option (Path × Bundle),
      theme = Session.theme? ⟨(Session.after ⟨files, settings, packers⟩ history).files, settings, packers⟩
          { c with noRecovery := history.any (switchesOff settings) || c.noRecovery }
        ∧ ((Session.after ⟨files, settings, packers⟩ history).run args).1.files
          = writeTheme (Session.after ⟨files, settings, packers⟩ history).files theme
        ∧ ((Session.after ⟨files', settings, packers'⟩ history').run args).1.files
          = writeTheme (Session.after ⟨files', settings, packers'⟩ history').files theme := by
  -- of what went before only this switch counts
  have hswitch : (history.any (switchesOff settings) || c.noRecovery)
      = (history'.any (switchesOff settings) || c.noRecovery) := by
    rcases hoff with hown | hsame
    · rw [hown, Bool.or_true, Bool.or_true]
    · rw [hsame]
  refine ⟨_, rfl, ?_, ?_⟩
  · rw [files_run hread, theme?_after]
  · rw [files_run hread, theme?_after, hinputs.theme?_eq, hswitch]

/-- Once or twice the document was missing, and then the page is converted to the same theme: that of
the page as it is. -/
theorem conversions_share_theme_plainFiles :
    ((Session.after plainSession [missingCall]).run plainCall).1.files
        = writeTheme plainFiles (some (⟨0, ["o"]⟩, Bundle.ofDocument plainPage none))
      ∧ ((Session.after plainSession [missingCall, missingCall]).run plainCall).1.files
        = writeTheme plainFiles (some (⟨0, ["o"]⟩, Bundle.ofDocument plainPage none)) := by
  have honce : (Session.after plainSession [missingCall]).files = plainFiles :=
    files_after_missingCall rfl 1
  have htwice : (Session.after plainSession [missingCall, missingCall]).files = plainFiles :=
    files_after_missingCall rfl 2
  -- the missing document leaves no trace in the files
  have hinputs : plainConversion.SameInputs (Session.after plainSession [missingCall]).files
      (Session.after plainSession [missingCall, missingCall]).files := by
    rw [honce, htwice]
    exact .refl _ _
  have hoff : [missingCall].any (switchesOff Settings.shipped)
      = [missingCall, missingCall].any (switchesOff Settings.shipped) := by
    simp only [List.any_cons, switchesOff_missingCall, Bool.true_or]
  obtain ⟨theme, htheme, hfirst, hsecond⟩ :=
    conversions_share_theme read_plainCall hinputs (.inr hoff)
  rw [honce, List.any_cons, switchesOff_missingCall, Bool.true_or, Bool.true_or,
    theme?_plainConversion convert_plainPage] at htheme
  rw [htheme, honce] at hfirst
  rw [htheme, htwice] at hsecond
  unfold plainSession
  exact ⟨hfirst, hsecond⟩

/-- A call with the switch changes what a later call without it writes, although that finds the same
files as if it was the first one. -/
theorem conversion_depends_on_history :
    (Session.after plainSession [missingCall]).files = plainFiles
      ∧ ((Session.after plainSession [missingCall]).run
          plainCall).1.files.at? ["w", "o", "t", "templates", "index.html"]
        ≠ (Session.run plainSession plainCall).1.files.at?
          ["w", "o", "t", "templates", "index.html"] := by
  have honce : (Session.after plainSession [missingCall]).files = plainFiles :=
    files_after_missingCall rfl 1
  obtain ⟨document, hconvert, hslug, hindex, hdone⟩ := exists_convert_plainPage
  have hafter : (Session.after plainSession [missingCall]).theme? plainConversion
      = some (⟨0, ["o"]⟩, Bundle.ofDocument plainPage none) := by
    rw [theme?_after, honce, List.any_cons, switchesOff_missingCall, Bool.true_or, Bool.true_or]
    exact theme?_plainConversion convert_plainPage
  have hfirst : Session.theme? plainSession plainConversion
      = some (⟨0, ["o"]⟩, Bundle.ofDocument document none) := theme?_plainConversion hconvert
  have hslug' : plainPage.slug = "t" := by rfl
  have hdone' : (Convert.writeBundle plainFiles ⟨0, ["o"]⟩
      (Bundle.ofDocument plainPage none)).2 = none := by
    rw [← Option.isNone_iff_eq_none]
    decide +kernel
  refine ⟨honce, ?_⟩
  rw [at?_index honce hafter hslug' hdone', at?_index rfl hfirst hslug hdone]
  -- the same bytes would be the same text
  intro hsame
  have hencoded := Entry.file.inj (Option.some.inj hsame)
  have hdecoded := Text.Utf8.decode_eq_ok_iff.2 hencoded
  rw [Text.Utf8.decode_eq_ok_iff.2 rfl] at hdecoded
  exact hindex (Except.ok.inj hdecoded)

end BlockTheme.Command
