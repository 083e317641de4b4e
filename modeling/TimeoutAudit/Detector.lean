import TimeoutAudit.CallSite
import TimeoutAudit.Finding
import TimeoutAudit.HttpVerb
import TimeoutAudit.Settings

/-!
# Detectors

A detector recognises the requests of one library and keeps a finding for every
request that sets no timeout.  Findings gather from one traversal to the next
until they are taken out or thrown away.  `Step` names what can be done to a
list of detectors, and `Step.apply` does it.
-/

set_option autoImplicit false

namespace TimeoutAudit

/-- How the requests of a library are recognised. -/
inductive Heuristic where
  | symfony (settings : SymfonySettings)
  | curl (settings : CurlSettings)
  | guzzle (settings : GuzzleSettings)
deriving DecidableEq, Repr

namespace Heuristic

/-- Whether `pattern` occurs in `text`. -/
def occursIn (pattern : List Char) : List Char → Bool
  | [] => pattern.isEmpty
  | first :: rest => pattern.isPrefixOf (first :: rest) || occursIn pattern rest

/-- Whether a call is `request` with a verb as its first argument. -/
def isVerbRequest (call : CallSite) : Bool :=
  call.isMethod "request" && call.firstLiteral?.any HttpVerb.isVerb

/-- Whether a call is `request` on the result of a factory. -/
def isFactoryRequest (settings : SymfonySettings) (call : CallSite) : Bool :=
  call.isMethod "request"
    && call.receiverClass?.any fun className =>
      occursIn settings.factoryMarker.toList className.toList

/-- Methods of the Guzzle client that send a request. -/
def requestMethods : List String :=
  ["request", "get", "post", "put", "delete", "patch", "head", "options"]

/-- Whether a call is a request on a variable that holds a Guzzle client. -/
def isClientRequest (settings : GuzzleSettings) (call : CallSite) : Bool :=
  call.kind == .method && requestMethods.contains call.name
    && !(isVerbRequest call && call.receiverVariable?.any settings.foreignVariables.contains)
    && call.receiverVariable?.any settings.clientVariables.contains

/-- The option that sets a timeout. -/
def timeoutOption : String := "timeout"

/-- Whether a call is a request of the library that sets no timeout.  Options of a
cURL handle are set by earlier calls, which are not followed. -/
def flags : Heuristic → CallSite → Bool
  | .symfony settings, call =>
    (isVerbRequest call || isFactoryRequest settings call) && !call.hasOption timeoutOption
  | .curl settings, call => settings.functions.any call.isFunction
  | .guzzle settings, call => isClientRequest settings call && !call.hasOption timeoutOption

/-- The library whose requests are recognised. -/
def library : Heuristic → Library
  | .symfony _ => .symfony
  | .curl _ => .curl
  | .guzzle _ => .guzzle

end Heuristic

namespace Library

/-- What is said about a request without a timeout. -/
def message : Library → String
  | .guzzle => "Guzzle HTTP request without timeout configuration"
  | .symfony => "Symfony HttpClient request without timeout configuration"
  | .curl => "cURL request without timeout configuration"

/-- How a request is given a timeout. -/
def suggestion : Library → String
  | .guzzle => "// Add timeout configuration:
$response = $client->request('GET', $url, [
    'timeout' => 10,         // Total request timeout
    'connect_timeout' => 3,  // Connection timeout
]);"
  | .symfony => "// Add timeout configuration:
$response = $client->request('GET', $url, [
    'timeout' => 10,  // Request timeout in seconds
]);"
  | .curl => "// Add timeout configuration:
$ch = curl_init($url);
curl_setopt($ch, CURLOPT_TIMEOUT, 10);         // Total timeout
curl_setopt($ch, CURLOPT_CONNECTTIMEOUT, 3);  // Connection timeout
$response = curl_exec($ch);
curl_close($ch);"

end Library

/-- A request of a library that sets no timeout. -/
def Finding.missingTimeout (library : Library) (call : CallSite) : Finding where
  line := call.line
  type := .missingTimeout
  library := library
  method := call.name
  severity := .high
  message := library.message
  suggestion := library.suggestion

/-- A heuristic with the findings gathered so far. -/
structure Detector where
  heuristic : Heuristic
  findings : List Finding
deriving DecidableEq, Repr

namespace Detector

open Php (Node ParsedFile)

/-- A detector that has found nothing yet. -/
def fresh (heuristic : Heuristic) : Detector := ⟨heuristic, []⟩

/-- The library that the detector reports on. -/
def library (detector : Detector) : Library := detector.heuristic.library

/-- What a detector finds at one node. -/
def visit (heuristic : Heuristic) (node : Node) : Option Finding :=
  (CallSite.ofNode? node).bind fun call =>
    if heuristic.flags call then some (.missingTimeout heuristic.library call) else none

/-- Walks a file and gathers what is found. -/
def traverse (detector : Detector) (file : ParsedFile) : Detector :=
  { detector with findings := detector.findings ++ file.walk (visit detector.heuristic) }

/-- The findings gathered, and the detector without them. -/
def take (detector : Detector) : List Finding × Detector :=
  (detector.findings, { detector with findings := [] })

/-- The detector without its findings. -/
def reset (detector : Detector) : Detector := { detector with findings := [] }

end Detector

/-- The enabled detectors, in the order in which their findings are reported. -/
def DetectorSettings.detectors (settings : DetectorSettings) : List Detector :=
  (if settings.symfony.enabled then [.fresh (.symfony settings.symfony)] else [])
    ++ (if settings.curl.enabled then [.fresh (.curl settings.curl)] else [])
    ++ (if settings.guzzle.enabled then [.fresh (.guzzle settings.guzzle)] else [])

/-! ## Steps -/

/-- What can be done to a detector. -/
inductive Action where
  /-- Walk a source. -/
  | traverse (source : List UInt8)
  /-- Take the findings out. -/
  | take
  /-- Throw the findings away. -/
  | reset
  /-- Look at the findings. -/
  | issues
deriving Repr

/-- An action on all detectors, or on the one at an index. -/
structure Step where
  action : Action
  target : Option Nat
deriving Repr

namespace Step

/-- Whether the detector at an index is meant. -/
def concerns (step : Step) (index : Nat) : Bool := step.target.all (· == index)

/-- Changes the detectors that are meant. -/
def change (step : Step) (operation : Detector → Detector) (detectors : List Detector) :
    List Detector :=
  detectors.mapIdx fun index detector =>
    if step.concerns index then operation detector else detector

/-- The findings of the detectors that are meant. -/
def selected (step : Step) (detectors : List Detector) : List (List Finding) :=
  (detectors.mapIdx fun index detector =>
    if step.concerns index then some detector.take.1 else none).filterMap id

/-- The detectors after a step, and what a `take` returns.  A source that does
not parse changes nothing. -/
def apply (step : Step) (detectors : List Detector) :
    Except Php.ParseError (List Detector × Option (List (List Finding))) :=
  match step.action with
  | .traverse source =>
    match Php.parse "" source with
    | .error problem => .error problem
    | .ok file => .ok (step.change (·.traverse file) detectors, none)
  | .take => .ok (step.change (·.take.2) detectors, some (step.selected detectors))
  | .reset => .ok (step.change Detector.reset detectors, none)
  | .issues => .ok (detectors, none)

/-- What a step leaves behind: the detectors, whatever happened. -/
def after (step : Step) (detectors : List Detector) : List Detector :=
  match step.apply detectors with
  | .ok (changed, _) => changed
  | .error _ => detectors

end Step

end TimeoutAudit
