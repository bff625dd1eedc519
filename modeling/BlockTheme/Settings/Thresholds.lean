import BlockTheme.Recovery.Thresholds
import BlockTheme.Settings

/-!
# Thresholds in the settings

The thresholds that the settings name. What they leave out has its default.
-/
namespace BlockTheme.Settings

/-- Why the settings give no thresholds. -/
inductive BadThresholds where
  /-- The section about them is no record. -/
  | noRecord
  | invalid (issues : List Schema.Issue)
  deriving DecidableEq, Repr

def thresholds (settings : Settings) : Except BadThresholds Recovery.Thresholds :=
  let found := settings.get "reconciler" (.record [])
  -- a section that says nothing counts as an empty one
  match (if found.isGiven then found else .record []) with
  | .record members =>
    match Recovery.Thresholds.ofFields (Data.jsonMembers members) with
    | .valid t => .ok t
    | .invalid issues => .error (.invalid issues)
  | _ => .error .noRecord

end BlockTheme.Settings
