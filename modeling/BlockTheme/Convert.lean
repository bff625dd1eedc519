import BlockTheme.Document.Summary
import BlockTheme.Recovery.Assignment
import BlockTheme.Render.Template
import BlockTheme.Settings.Thresholds
import BlockTheme.Theme.Files

/-!
# Conversion

A document becomes the files of a theme. If the markup of the page and a stylesheet are at hand,
the document first gets back the class names that the markup had.
-/
namespace BlockTheme

namespace Convert

/-- Why a document cannot be converted. -/
inductive Failure where
  | rejected (why : Html.Rejection)
  /-- The part of the keys that has to be shared is no number of keys. -/
  | share (why : Binary64.NoCeiling)
  | thresholds (why : Settings.BadThresholds)
  deriving DecidableEq, Repr

def Failure.message : Failure → String
  | .rejected why => why.message
  | .share .notANumber => "cannot convert float NaN to integer"
  | .share .infinite => "cannot convert float infinity to integer"
  | .thresholds .noRecord => "the thresholds are no record"
  | .thresholds (.invalid issues) =>
    String.ofList (Nat.toDigits 10 issues.length) ++ " validation error(s)"

/-- The stylesheet that counts: the one that is given, even an empty one, or else the one of the
document. -/
def stylesheet (document : Document) (css : Option String) : Option String :=
  css <|> document.stylesheet

/-- The document with the class names of its page's markup; nothing if it stays as it is because
there is no markup, no stylesheet or no class in it. -/
def recovered? (thresholds : Except Settings.BadThresholds Recovery.Thresholds)
    (document : Document) (html css : Option String) : Except Failure (Option Document) :=
  let sheet := stylesheet document css
  let defined := Recovery.definedClasses (sheet.getD "")
  if !Text.isFilled html || !Text.isFilled sheet || defined.isEmpty then .ok none
  else
    -- the markup is read before the thresholds are looked at
    match Recovery.Stock.ofMarkup (html.getD "") defined, thresholds with
    | .error why, _ => .error (.rejected why)
    | .ok _, .error why => .error (.thresholds why)
    | .ok stock, .ok thresholds =>
      match Recovery.recover stock thresholds document with
      | .error why => .error (.share why)
      | .ok document => .ok (some document)

def isRecovering (settings : Settings) : Bool :=
  (settings.get "reconciler.enabled" (.flag true)).isGiven

def prepared (settings : Settings) (document : Document) (html css : Option String) :
    Except Failure Document :=
  if isRecovering settings then
    (recovered? settings.thresholds document html css).map fun found => found.getD document
  else .ok document

end Convert

/-- The files of a theme, by their paths inside its directory, in the order in which they are
written. -/
structure Bundle where
  slug : String
  files : List (String × String)
  summary : Summary

namespace Bundle

def filesOf (document : Document) (css : Option String) : List (String × String) :=
  let templates := document.templates
  [("style.css", Theme.declarationFile document),
    ("theme.json", Theme.settingsFile document),
    ("functions.php", Theme.functionsFile document),
    ("assets/css/custom.css", Theme.stylesheetFile (Convert.stylesheet document css)),
    ("templates/index.html", Markup.allToText templates.index)]
    ++ (templates.header.map fun part => ("parts/header.html", part.toText)).toList
    ++ (templates.footer.map fun part => ("parts/footer.html", part.toText)).toList

def ofDocument (document : Document) (css : Option String) : Bundle :=
  ⟨document.slug, filesOf document css, document.summary⟩

end Bundle

def convert (settings : Settings) (document : Document) (html css : Option String) :
    Except Convert.Failure Bundle :=
  (Convert.prepared settings document html css).map fun document => Bundle.ofDocument document css

end BlockTheme
