import BlockTheme.Command.Usage
import BlockTheme.Convert.Batch
import BlockTheme.Csv
import BlockTheme.Files.Packing
import BlockTheme.Settings.Logging

/-!
# The command line

What the converter does for a list of arguments. A `Session` is what lasts from one call to the
next: the files and the settings. `Session.run` gives what is printed, how the call ended, and the
session afterwards.
-/
namespace BlockTheme

namespace Command

/-! ## Invocations -/

inductive Task where
  | convert (document : String) (html css out : Option String) (noRecovery : Bool)
  | batch (directory : String) (out : Option String) (workers : Option Int)
      (summary : Option String)
  | summary (document : String)
  deriving DecidableEq, Repr

structure Invocation where
  logLevel : Option String
  task : Option Task
  deriving DecidableEq, Repr

/-- How a call ends that only explains the arguments. -/
structure Exit where
  code : Nat
  output : String := ""
  errors : String := ""
  deriving DecidableEq, Repr

/-- The end of a call with a fault in its arguments. -/
def faultExit (usage caller message : String) : Exit :=
  { code := 2, errors := usage ++ caller ++ ": error: " ++ message ++ "\n" }

/-- The end of a call whose arguments were not read to the end. -/
def Stop.exit (usage help caller : String) : Stop → Exit
  | .help => { code := 0, output := help }
  | .fault message => faultExit usage caller message

def Task.ofParsed (name : Name) (p : Parsed) : Task :=
  let operand := (p.operand.bind List.head?).getD ""
  match name with
  | .convert =>
    .convert operand (p.value? "--html") (p.value? "--css") (p.value? "--out")
      (p.has "--no-reconcile")
  | .batch =>
    .batch operand (p.value? "--out")
      ((p.value? "--workers").bind fun s => Text.settingInteger? s.toList) (p.value? "--summary")
  | .summary => .summary operand

def choices : String := ", ".intercalate (Name.all.map fun name => Text.quoted name.text)

def read (args : List String) : Except Exit Invocation := do
  let fault := faultExit mainUsage program
  let p ← match mainGrammar.parse args with
    | .ok p => Except.ok p
    | .error stop => .error (stop.exit mainUsage mainHelp program)
  let logLevel := p.value? "--log-level"
  let (task, extras) ← match p.operand with
    | none | some [] => Except.ok (none, p.extras)
    | some (word :: rest) =>
      match Name.ofText? word with
      | none =>
        .error (fault ("argument command: invalid choice: " ++ Text.quoted word
          ++ " (choose from " ++ choices ++ ")"))
      | some name =>
        match name.grammar.parse rest with
        | .error stop =>
          .error (stop.exit name.usage name.help (program ++ " " ++ name.text))
        | .ok inner => .ok (some (Task.ofParsed name inner), p.extras ++ inner.extras)
  if extras.isEmpty then return ⟨logLevel, task⟩
  else .error (fault ("unrecognized arguments: " ++ " ".intercalate extras))

/-! ## Tasks -/

/-- Why a batch cannot have its workers. -/
inductive BadWorkers where
  /-- The settings have something else than their number. -/
  | noNumber
  | tooFew
  | tooMany
  deriving DecidableEq, Repr

/-- Why a call breaks off. -/
inductive Failure where
  | level (why : Logging.BadLevel)
  /-- The settings are no record, so that nothing in them can be changed. -/
  | settings
  | files (why : Files.Failure)
  | conversion (why : Convert.Failure)
  | workers (why : BadWorkers)
  /-- The package is missing that packs a file in this way. -/
  | package (packing : Packing)
  deriving DecidableEq, Repr

def Failure.message : Failure → String
  | .level .unnamed => "unknown level"
  | .level .noLevel => "not a level"
  | .level .noRecord => "the levels of modules are no record"
  | .level .noName => "a module has no name"
  | .settings => "the settings are no record"
  | .files why => why.message
  | .conversion why => why.message
  | .workers .noNumber => "the workers are no number"
  | .workers .tooFew => "there has to be a worker at least"
  | .workers .tooMany => "there are too many workers"
  | .package _ => "a package for packed files is missing"

inductive Output where
  | text (printed : String)
  /-- The statistics of a batch, which say how long it took. -/
  | batch (done : Batch)

def decimal (n : Nat) : String := String.ofList (Nat.toDigits 10 n)

/-- What is printed, given the seconds that the task took. -/
def Output.print (elapsed : String) : Output → String
  | .text printed => printed
  | .batch done =>
    "Converted " ++ decimal done.succeeded ++ "/" ++ decimal done.total ++ " documents in "
      ++ elapsed ++ "s (" ++ decimal done.failed ++ " failed).\n"

/-- What a task ends with: what it prints and its exit code, or why it breaks off. -/
abbrev Result := Except Failure (Output × Nat)

def say (printed : String) (code : Nat) : Result := .ok (.text printed, code)

/-- What lasts from one call to the next. -/
structure Session where
  files : Files
  settings : Settings
  /-- The packages that are there for packed files. -/
  packers : Packers

/-- What is printed for a failure of a file or of a document, and the exit code. -/
def report : Convert.FileFailure → Result
  | .files (.refused reason path) =>
    say ("File error: " ++ (Files.Failure.refused reason path).message ++ "\n") 1
  -- a text that is not UTF-8 breaks the call off
  | .files why => .error (.files why)
  | .suffix .malformed => say "Invalid suffix.\n" 1
  | .suffix .noName => say "No file name.\n" 1
  | .invalid issues => say ("Invalid IR document: " ++ Convert.countIssues issues ++ ".\n") 1
  | .conversion (.thresholds (.invalid issues)) =>
    say ("Invalid IR document: " ++ Convert.countIssues issues ++ ".\n") 1
  -- and so do failures of the markup and of the settings
  | .conversion why => .error (.conversion why)

/-- The text of a file that may not be named. -/
def readNamed (files : Files) (path : Option String) : Except Convert.FileFailure (Option String) :=
  match path with
  | none | some "" => .ok none
  | some path =>
    match files.read (Path.ofText path) with
    | .ok text => .ok (some text)
    | .error why => .error (.files why)

/-- The directory that themes go to if none is named. -/
def defaultOut (files : Files) : Path := ⟨1, files.current ++ ["blocksmith_output"]⟩

def outOf (files : Files) (out : Option String) : Path :=
  match out with
  | none | some "" => defaultOut files
  | some out => Path.ofText out

def bundleOf (s : Session) (document : String) (html css : Option String) :
    Except Convert.FileFailure Bundle := do
  let loaded ← Convert.load s.files (Path.ofText document)
  let html ← readNamed s.files html
  let css ← readNamed s.files css
  match convert s.settings loaded html css with
  | .ok bundle => .ok bundle
  | .error why => .error (.conversion why)

def runConvert (s : Session) (document : String) (html css out : Option String) :
    Session × Result :=
  match bundleOf s document html css with
  | .error why => (s, report why)
  | .ok bundle =>
    let out := outOf s.files out
    match Convert.writeBundle s.files out bundle with
    | (files, some why) => ({ s with files }, report (.files why))
    | (files, none) =>
      ({ s with files },
        say ("Theme '" ++ bundle.slug ++ "' written to "
          ++ (Convert.themeDirectory out bundle).text ++ " ("
          ++ decimal bundle.files.length ++ " files).\n") 0)

def documentsIn (files : Files) (directory : Path) : List Path :=
  match files.locate directory with
  | .error _ => []
  | .ok location =>
    ((files.names location).filter fun name =>
      ".json".toList.isSuffixOf name.toList).map directory.child

/-- Writes the table of a batch, if a path for it is named. -/
def writeTable (packers : Packers) (files : Files) (path : Option String) (batch : Batch) :
    Files × Option Failure :=
  match path with
  | none | some "" => (files, none)
  | some path =>
    let path := Path.ofText path
    let text := Text.Utf8.encode (Csv.ofRows batch.rows).toList
    let save (content : List UInt8) : Files × Option Failure :=
      let (files, failed) := files.saveBytes path content
      (files, failed.map .files)
    match Packing.ofPath? path with
    | none => save text
    | some packing =>
      match packers packing with
      | some pack => save (pack text)
      | none =>
        -- the directory is made before the package is missed
        match files.make path.parent with
        | (files, some why) => (files, some (.files why))
        | (files, none) => (files, some (.package packing))

/-- As many workers as a batch can have, which is `2 ^ 31 - 2`. -/
def mostWorkers : Int := 2147483646

/-- The value that says how many workers there are; nothing if the machine does. -/
def workersValue? (settings : Settings) (asked : Option Int) : Option Settings.Data :=
  -- zero workers are those that the settings say
  (asked.filter (· != 0)).map Settings.Data.int <|> settings.workers?

/-- The number of workers of a batch; nothing if it is left to the machine. -/
def workersOf (settings : Settings) (asked : Option Int) : Except BadWorkers (Option Int) :=
  match workersValue? settings asked with
  | none => .ok none
  | some v =>
    match Settings.Cast.toInteger v.view with
    | .error _ => .error .tooMany
    | .ok none => .error .noNumber
    | .ok (some n) =>
      if n ≤ 0 then .error .tooFew
      else if mostWorkers < n then .error .tooMany
      else .ok (some n)

def runBatch (s : Session) (directory : String) (out : Option String) (workers : Option Int)
    (table : Option String) : Session × Result :=
  let path := Path.ofText directory
  match s.files.isDirectory path with
  | .error why => (s, report (.files why))
  | .ok false => (s, say ("Not a directory: " ++ path.text ++ "\n") 1)
  | .ok true =>
    match documentsIn s.files path with
    | [] => (s, say ("No IR documents found in " ++ path.text ++ ".\n") 0)
    | paths =>
      match workersOf s.settings workers with
      | .error why => (s, .error (.workers why))
      | .ok _ =>
        let (files, batch) := Batch.run s.settings (outOf s.files out) s.files paths
        match writeTable s.packers files table batch with
        | (files, some (.files why)) => ({ s with files }, report (.files why))
        | (files, some why) => ({ s with files }, .error why)
        | (files, none) => ({ s with files }, .ok (.batch batch, if batch.failed = 0 then 0 else 1))

/-- How many levels the files of a theme lie below the output directory at most. -/
def themeDepth : Nat := 4

/-- The paths that a task looks at, and how many levels below them. -/
def Task.looksAt (files : Files) : Task → List (Path × Nat)
  | .convert document html css out _ =>
    ((document :: (html.toList ++ css.toList)).map fun name => (Path.ofText name, 0))
      ++ [(outOf files out, themeDepth)]
  | .batch directory out _ table =>
    [(Path.ofText directory, 1), (outOf files out, themeDepth)]
      ++ table.toList.map fun name => (Path.ofText name, 0)
  | .summary document => [(Path.ofText document, 0)]

/-- The paths that a call looks at. -/
def looksAt (files : Files) (args : List String) : List (Path × Nat) :=
  match read args with
  | .ok ⟨_, some task⟩ => task.looksAt files
  | _ => []

def runSummary (s : Session) (document : String) : Session × Result :=
  match Convert.load s.files (Path.ofText document) with
  | .error why => (s, report why)
  | .ok document => (s, say (document.summary.text ++ "\n") 0)

/-- The settings of a conversion, in which recovery may be switched off. -/
def settingsFor (settings : Settings) (noRecovery : Bool) : Except Failure Settings :=
  -- recovery that was switched off before stays off
  if !noRecovery then .ok settings
  else
    -- no level of nesting is needed to show a flag
    match settings.set 0 "reconciler.enabled" (.flag false) with
    | (.noRecord, _) => .error .settings
    -- where a flag cannot be put the settings stay as they are
    | (_, settings) => .ok settings

/-- Carries out a task. -/
def Task.run (s : Session) : Task → Session × Result
  | .convert document html css out noRecovery =>
    match settingsFor s.settings noRecovery with
    | .error why => (s, .error why)
    | .ok settings => runConvert { s with settings } document html css out
  | .batch directory out workers table => runBatch s directory out workers table
  | .summary document => runSummary s document

/-- The level of messages in general: the one that is named, or else the one that is set. -/
def generalLevel (settings : Settings) (logLevel : Option String) : Settings.Data :=
  if Text.isFilled logLevel then .text (logLevel.getD "")
  else settings.get "debug.level" (.text "WARNING")

/-- The levels at which messages are reported during a call. -/
def levels (settings : Settings) (logLevel : Option String) :
    Except Logging.BadLevel Logging.Levels :=
  Logging.configure (generalLevel settings logLevel)
    (settings.get "debug.module_levels" (.record []))
    (settings.get "debug.silenced" (.record []))

inductive Ending where
  | returned (code : Nat) (output : Output)
  | exited (exit : Exit)
  | failed (why : Failure)

def Session.run (s : Session) (args : List String) : Session × Ending :=
  match read args with
  | .error exit => (s, .exited exit)
  | .ok invocation =>
    match levels s.settings invocation.logLevel, invocation.task with
    | .error why, _ => (s, .failed (.level why))
    | .ok _, none => (s, .returned 0 (.text mainHelp))
    | .ok _, some task =>
      match task.run s with
      | (s, .ok (output, code)) => (s, .returned code output)
      | (s, .error why) => (s, .failed why)

end Command

end BlockTheme
