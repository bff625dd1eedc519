import BlockTheme.Convert
import BlockTheme.Document.Reader
import BlockTheme.Files

/-!
# Converting files

Documents are read from files and their themes written below an output directory. A row says what
became of each document; `Batch.run` converts many of them, and keeps going where one fails.
-/
namespace BlockTheme

namespace Convert

/-- Why a file cannot be converted. -/
inductive FileFailure where
  | files (why : Files.Failure)
  | suffix (why : Path.BadSuffix)
  | invalid (issues : List Schema.Issue)
  | conversion (why : Failure)
  deriving DecidableEq, Repr

def countIssues (issues : List Schema.Issue) : String :=
  String.ofList (Nat.toDigits 10 issues.length) ++ " validation error(s)"

def FileFailure.message : FileFailure → String
  | .files why => why.message
  | .suffix .malformed => "Invalid suffix"
  | .suffix .noName => "path has an empty name"
  | .invalid issues => countIssues issues
  | .conversion why => why.message

def load (files : Files) (path : Path) : Except FileFailure Document :=
  match files.read path with
  | .error why => .error (.files why)
  | .ok text =>
    match Document.load text with
    | .valid document => .ok document
    | .invalid issues => .error (.invalid issues)

def themeDirectory (out : Path) (bundle : Bundle) : Path := out.join (Path.ofText bundle.slug)

def writes (out : Path) (bundle : Bundle) : List (Path × String) :=
  bundle.files.map fun (name, text) =>
    ((themeDirectory out bundle).join (Path.ofText name), text)

/-- Writes a theme below a directory. -/
def writeBundle (files : Files) (out : Path) (bundle : Bundle) : Files × Option Files.Failure :=
  match files.make (themeDirectory out bundle) with
  | (files, some why) => (files, some why)
  | (files, none) => files.saveAll (writes out bundle)

/-- The text beside a document, in the file with the same name and another suffix. -/
def sibling? (files : Files) (path : Path) (suffix : String) :
    Except FileFailure (Option String) :=
  match path.withSuffix suffix with
  | .error why => .error (.suffix why)
  | .ok path =>
    match files.read? path with
    | .error why => .error (.files why)
    | .ok text => .ok text

/-- The theme of the document in a file, with the markup and the stylesheet beside it. -/
def bundleOf (settings : Settings) (files : Files) (path : Path) : Except FileFailure Bundle := do
  let document ← load files path
  let html ← sibling? files path ".html"
  let css ← sibling? files path ".css"
  match convert settings document html css with
  | .error why => .error (.conversion why)
  | .ok bundle => .ok bundle

end Convert

abbrev Row := Fields

namespace Row

def failed (path : Path) (message : String) : Row :=
  [("source", .string path.text), ("status", .string "failed"), ("error", .string message)]

def converted (path out : Path) (bundle : Bundle) : Row :=
  [("source", .string path.text), ("status", .string "ok")]
    ++ bundle.summary.counts .snakeCase
    ++ [("slug", .string bundle.slug),
      ("output", .string (Convert.themeDirectory out bundle).text)]

/-- Whether a row is that of a document that was converted. -/
def isOk (row : Row) : Bool :=
  match row.get? "status" with
  | some (.string s) => s == "ok"
  | _ => false

def source (row : Row) : String :=
  match row.get? "source" with
  | some (.string s) => s
  | _ => ""

end Row

namespace Convert

/-- Converts a file and says what became of it. -/
def convertFile (settings : Settings) (out : Path) (files : Files) (path : Path) :
    Files × Except FileFailure Row :=
  match bundleOf settings files path with
  | .error why => (files, .error why)
  | .ok bundle =>
    match writeBundle files out bundle with
    | (files, some why) => (files, .error (.files why))
    | (files, none) => (files, .ok (Row.converted path out bundle))

/-- Whether a failure is one of the document, of its files or of a number, which a row reports, and
not one of the markup or of the settings. -/
def FileFailure.isReported : FileFailure → Bool
  | .conversion (.rejected why) => why.isOfNumber
  | .conversion (.share .infinite) => false
  | .conversion (.thresholds .noRecord) => false
  | _ => true

/-- Converts a file and reports what became of it in a row. -/
def work (settings : Settings) (out : Path) (files : Files) (path : Path) :
    Files × Except FileFailure Row :=
  match convertFile settings out files path with
  | (files, .error why) =>
    -- a failure that is not for a row is handed on
    (files, if why.isReported then .ok (Row.failed path why.message) else .error why)
  | done => done

end Convert

/-- What became of many documents: one row for each, by their paths. -/
structure Batch where
  rows : List Row

namespace Batch

def total (b : Batch) : Nat := b.rows.length

def succeeded (b : Batch) : Nat := b.rows.countP Row.isOk

def failed (b : Batch) : Nat := b.total - b.succeeded

def ofRows (rows : List Row) : Batch :=
  ⟨rows.mergeSort fun a b => decide (a.source ≤ b.source)⟩

/-- The row for what work on a file ended with. -/
def rowOf (path : Path) : Except Convert.FileFailure Row → Row
  | .ok row => row
  | .error why => Row.failed path why.message

def collect (settings : Settings) (out : Path) (files : Files) : List Path → Files × List Row
  | [] => (files, [])
  | path :: rest =>
    let (files, done) := Convert.work settings out files path
    let (files, rows) := collect settings out files rest
    (files, rowOf path done :: rows)

def run (settings : Settings) (out : Path) (files : Files) (paths : List Path) : Files × Batch :=
  let (files, rows) := collect settings out files paths
  (files, ofRows rows)

def json (b : Batch) : Json :=
  .object
    [("documents_total", .nat b.total), ("documents_success", .nat b.succeeded),
      ("documents_failed", .nat b.failed), ("rows", .array (b.rows.map Json.object))]

end Batch

end BlockTheme
