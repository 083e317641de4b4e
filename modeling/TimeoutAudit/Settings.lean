/-!
# Settings

What the user can choose, with the built-in value of every choice.
-/

set_option autoImplicit false

namespace TimeoutAudit

namespace Settings

/-- Variables that hold a Guzzle client, unless others are named. -/
def usualClientVariables : List String :=
  ["client", "httpClient", "guzzle", "guzzleClient", "http", "api", "apiClient", "restClient"]

/-- Variables that may hold another client, unless others are named. -/
def usualForeignVariables : List String := ["symfonyClient", "httpClient"]

/-- A part of the name of the class that makes Symfony clients, unless another is named. -/
def usualFactoryMarker : String := "HttpClient"

/-- Functions that send a cURL request, unless others are named. -/
def usualFunctions : List String := ["curl_exec"]

end Settings

/-- How calls of the Guzzle client are recognised. -/
structure GuzzleSettings where
  enabled : Bool := true
  /-- Variables that hold a client, without `$`. -/
  clientVariables : List String := Settings.usualClientVariables
  /-- Variables whose `request` with a verb belongs to another library. -/
  foreignVariables : List String := Settings.usualForeignVariables
deriving DecidableEq, Repr, Inhabited

/-- How calls of the Symfony client are recognised. -/
structure SymfonySettings where
  enabled : Bool := true
  /-- A part of the name of the class that makes clients. -/
  factoryMarker : String := Settings.usualFactoryMarker
deriving DecidableEq, Repr, Inhabited

/-- How calls of cURL are recognised. -/
structure CurlSettings where
  enabled : Bool := true
  /-- Functions that send a request. -/
  functions : List String := Settings.usualFunctions
deriving DecidableEq, Repr, Inhabited

/-- The settings of all detectors. -/
structure DetectorSettings where
  guzzle : GuzzleSettings := {}
  symfony : SymfonySettings := {}
  curl : CurlSettings := {}
deriving DecidableEq, Repr, Inhabited

/-- All settings. -/
structure Settings where
  version : String := ""
  /-- Patterns of paths, relative to the root, that are left out. -/
  excludedPaths : List String := []
  detectors : DetectorSettings := {}
deriving DecidableEq, Repr, Inhabited

end TimeoutAudit
