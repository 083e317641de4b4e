import TimeoutAudit.Glob
import TimeoutAudit.Settings
import TimeoutAudit.Text.Blank
import TimeoutAudit.Text.Quoted

/-!
# Which settings can be used

Every pattern of excluded paths has to be one, and an enabled detector needs
something to look for.
-/

set_option autoImplicit false

namespace TimeoutAudit.Settings

/-- Why settings cannot be used. -/
inductive Defect where
  | badPattern (pattern : String) (reason : Glob.Error)
  | noClientVariables
  | noFactoryMarker
  | noFunctions
deriving DecidableEq, Repr

/-- The wording of a defect. -/
def Defect.message : Defect → String
  | badPattern pattern reason =>
    "invalid excluded_paths pattern " ++ Text.quoted pattern ++ ": error parsing glob '" ++ pattern
      ++ "': " ++ reason.message
  | noClientVariables => "detectors.guzzle.client_variables must not be empty"
  | noFactoryMarker => "detectors.symfony.factory_marker must not be empty"
  | noFunctions => "detectors.curl.functions must not be empty"

/-- The patterns that are left out, or the first text that is no pattern. -/
def compilePatterns : List String → Except Defect (List (List Glob.Token))
  | [] => .ok []
  | pattern :: rest =>
    match Glob.tokens pattern with
    | .error reason => .error (.badPattern pattern reason)
    | .ok tokens => (compilePatterns rest).map (tokens :: ·)

/-- The paths that are left out. -/
def exclusion (settings : Settings) : Except Defect PathFilter :=
  (compilePatterns settings.excludedPaths).map PathFilter.mk

/-- The first defect of settings. -/
def defect? (settings : Settings) : Option Defect :=
  match settings.exclusion with
  | .error defect => some defect
  | .ok _ =>
    let detectors := settings.detectors
    if detectors.guzzle.enabled && detectors.guzzle.clientVariables.isEmpty then
      some .noClientVariables
    else if detectors.symfony.enabled && Text.allBlank detectors.symfony.factoryMarker.toList then
      some .noFactoryMarker
    else if detectors.curl.enabled && detectors.curl.functions.isEmpty then some .noFunctions
    else none

end TimeoutAudit.Settings
