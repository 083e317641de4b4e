import TimeoutAudit.Audit.Run
import TimeoutAudit.Proofs.Suppression.Split
import TimeoutAudit.Proofs.Syntax.PreOrder
import TimeoutAudit.Proofs.Text.Lossy

/-!
# Which calls are found in a file

A heuristic answers by a chain of Boolean tests on a call site.  `Reported` says the
same as a proposition about the call itself: its kind, its name, what it is made on
and what it is given.  The two agree (`Heuristic.flags_iff`), so a detector that walks
a file adds one finding for every reported call, in pre-order
(`Detector.traverse_eq`).

Going through a list of detectors adds up what each of them finds and leaves them
empty (`Audit.detect_eq`).  The audit of a file with the detectors of some settings
is then determined by the calls alone (`Audit.auditFile_eq_split_expected`).
-/

set_option autoImplicit false

namespace TimeoutAudit

open Php (Node ParsedFile)

/-! ## What is reported -/

namespace CallSite

/-- The first argument is positional, and is a string that names a verb. -/
def StartsWithVerb (call : CallSite) : Prop :=
  ∃ text others, call.arguments = ⟨none, .literal text⟩ :: others ∧ HttpVerb.isVerb text = true

/-- An argument is an array with the key `timeout` among its literal keys. -/
def SetsTimeout (call : CallSite) : Prop :=
  ∃ argument ∈ call.arguments, ∃ keys, argument.value = .options keys ∧ "timeout" ∈ keys

/-- The call is made on the result of a static call of a class whose name holds the
given text. -/
def OnFactory (marker : String) (call : CallSite) : Prop :=
  ∃ className, call.receiver = some (.staticCall className) ∧
    marker.toList <:+: className.toList

end CallSite

/-- The calls that a heuristic has to report. -/
def Reported : Heuristic → CallSite → Prop
  | .symfony settings, call =>
      call.kind = .method ∧ call.name = "request" ∧
        (call.StartsWithVerb ∨ call.OnFactory settings.factoryMarker) ∧ ¬ call.SetsTimeout
  | .curl settings, call => call.kind = .function ∧ call.name ∈ settings.functions
  | .guzzle settings, call =>
      call.kind = .method ∧
        call.name ∈ ["request", "get", "post", "put", "delete", "patch", "head", "options"] ∧
        (∃ name, call.receiver = some (.variable name) ∧ name ∈ settings.clientVariables ∧
          ¬ (call.name = "request" ∧ call.StartsWithVerb ∧ name ∈ settings.foreignVariables)) ∧
        ¬ call.SetsTimeout

/-! ## Questions about a call, as propositions -/

namespace CallSite

theorem firstLiteral?_any_iff (call : CallSite) (holds : String → Bool) :
    call.firstLiteral?.any holds = true ↔
      ∃ text others, call.arguments = ⟨none, .literal text⟩ :: others ∧ holds text = true := by
  unfold firstLiteral?
  cases call.arguments with
  | nil => simp
  | cons first others =>
      obtain ⟨name, value⟩ := first
      cases name with
      | some name => simp [Argument.isPositional]
      | none => cases value <;> simp [Argument.isPositional]

theorem receiverVariable?_eq_some_iff (call : CallSite) (name : String) :
    call.receiverVariable? = some name ↔ call.receiver = some (.variable name) := by
  unfold receiverVariable?
  split
  case h_1 other receiver => simp [receiver]
  case h_2 noVariable =>
      constructor
      · simp
      · intro receiver
        exact absurd receiver (noVariable name)

theorem receiverClass?_eq_some_iff (call : CallSite) (className : String) :
    call.receiverClass? = some className ↔ call.receiver = some (.staticCall className) := by
  unfold receiverClass?
  split
  case h_1 other receiver => simp [receiver]
  case h_2 noClass =>
      constructor
      · simp
      · intro receiver
        exact absurd receiver (noClass className)

theorem hasOption_iff (call : CallSite) (key : String) :
    call.hasOption key = true ↔
      ∃ argument ∈ call.arguments, ∃ keys, argument.value = .options keys ∧ key ∈ keys := by
  rw [hasOption, List.any_eq_true]
  refine exists_congr fun argument => and_congr_right fun _ => ?_
  cases argument.value with
  | literal text => simp
  | options keys => simp
  | other => simp

end CallSite

namespace Heuristic

/-- The search for a part of a name finds every place where it stands. -/
theorem occursIn_iff (pattern text : List Char) :
    occursIn pattern text = true ↔ pattern <:+: text := by
  induction text with
  | nil => simp [occursIn]
  | cons first rest ih =>
      rw [occursIn, Bool.or_eq_true, ih, List.isPrefixOf_iff_prefix, List.infix_cons_iff]

theorem isVerbRequest_iff (call : CallSite) :
    isVerbRequest call = true ↔
      call.kind = .method ∧ call.name = "request" ∧ call.StartsWithVerb := by
  rw [isVerbRequest, Bool.and_eq_true, CallSite.firstLiteral?_any_iff]
  simp [CallSite.isMethod, CallSite.StartsWithVerb, and_assoc]

theorem isFactoryRequest_iff (settings : SymfonySettings) (call : CallSite) :
    isFactoryRequest settings call = true ↔
      call.kind = .method ∧ call.name = "request" ∧ call.OnFactory settings.factoryMarker := by
  rw [isFactoryRequest, Bool.and_eq_true, Option.any_eq_true]
  simp [CallSite.isMethod, CallSite.OnFactory, CallSite.receiverClass?_eq_some_iff, occursIn_iff,
    and_assoc]

theorem isClientRequest_iff (settings : GuzzleSettings) (call : CallSite) :
    isClientRequest settings call = true ↔
      call.kind = .method ∧ call.name ∈ requestMethods ∧
        ∃ name, call.receiver = some (.variable name) ∧ name ∈ settings.clientVariables ∧
          ¬ (call.name = "request" ∧ call.StartsWithVerb ∧
            name ∈ settings.foreignVariables) := by
  have onVariable (names : List String) : call.receiverVariable?.any names.contains = true ↔
      ∃ name, call.receiver = some (.variable name) ∧ name ∈ names := by
    rw [Option.any_eq_true]
    simp only [CallSite.receiverVariable?_eq_some_iff, List.contains_iff_mem]
  simp only [isClientRequest, Bool.and_eq_true, Bool.not_eq_true', ← Bool.not_eq_true, beq_iff_eq,
    List.contains_iff_mem, onVariable, isVerbRequest_iff]
  constructor
  · rintro ⟨⟨⟨kind, method⟩, notForeign⟩, name, receiver, client⟩
    refine ⟨kind, method, name, receiver, client, ?_⟩
    rintro ⟨request, verb, foreign⟩
    exact notForeign ⟨⟨kind, request, verb⟩, name, receiver, foreign⟩
  · rintro ⟨kind, method, name, receiver, client, notForeign⟩
    refine ⟨⟨⟨kind, method⟩, ?_⟩, name, receiver, client⟩
    -- A call has one receiver, so a foreign variable would be the client itself.
    rintro ⟨⟨-, request, verb⟩, other, otherReceiver, foreign⟩
    obtain rfl : name = other := by simpa [receiver] using otherReceiver
    exact notForeign ⟨request, verb, foreign⟩

/-- **A heuristic flags exactly the calls that it has to report.** -/
theorem flags_iff (heuristic : Heuristic) (call : CallSite) :
    heuristic.flags call = true ↔ Reported heuristic call := by
  have timeout : call.hasOption timeoutOption = true ↔ call.SetsTimeout :=
    call.hasOption_iff timeoutOption
  cases heuristic with
  | symfony settings =>
      simp only [flags, Reported, Bool.and_eq_true, Bool.or_eq_true, Bool.not_eq_true',
        ← Bool.not_eq_true, timeout, isVerbRequest_iff, isFactoryRequest_iff]
      constructor
      · rintro ⟨⟨kind, request, verb⟩ | ⟨kind, request, factory⟩, noTimeout⟩
        · exact ⟨kind, request, .inl verb, noTimeout⟩
        · exact ⟨kind, request, .inr factory, noTimeout⟩
      · rintro ⟨kind, request, verb | factory, noTimeout⟩
        · exact ⟨.inl ⟨kind, request, verb⟩, noTimeout⟩
        · exact ⟨.inr ⟨kind, request, factory⟩, noTimeout⟩
  | curl settings =>
      simp only [flags, Reported, List.any_eq_true, CallSite.isFunction, Bool.and_eq_true,
        beq_iff_eq]
      constructor
      · rintro ⟨name, member, kind, rfl⟩
        exact ⟨kind, member⟩
      · rintro ⟨kind, member⟩
        exact ⟨call.name, member, kind, rfl⟩
  | guzzle settings =>
      simp only [flags, Reported, Bool.and_eq_true, Bool.not_eq_true', ← Bool.not_eq_true,
        timeout, isClientRequest_iff, requestMethods, and_assoc]

instance (heuristic : Heuristic) : DecidablePred (Reported heuristic) :=
  fun call => decidable_of_iff _ (heuristic.flags_iff call)

/-- What a heuristic has to find in a syntax tree: a finding for every call that it
reports, in pre-order. -/
def findings (heuristic : Heuristic) (root : Node) : List Finding :=
  ((callsInPreOrder root).filter fun call => Reported heuristic call).map
    (.missingTimeout heuristic.library)

end Heuristic

/-! ## Detectors on a file -/

namespace Detector

theorem walk_visit (heuristic : Heuristic) (file : ParsedFile) :
    file.walk (visit heuristic) = heuristic.findings file.tree := by
  have same : (fun call => decide (Reported heuristic call)) = heuristic.flags := by
    funext call
    rw [Bool.eq_iff_iff, decide_eq_true_iff, heuristic.flags_iff]
  unfold visit
  rw [file.walk_bind_ofNode?, Heuristic.findings, same, ← List.filterMap_eq_map,
    List.filterMap_filter]
  rfl

/-- A traversal adds what the heuristic has to find, behind what was found before. -/
theorem traverse_eq (detector : Detector) (file : ParsedFile) :
    detector.traverse file =
      ⟨detector.heuristic, detector.findings ++ detector.heuristic.findings file.tree⟩ := by
  rw [traverse, walk_visit]

end Detector

/-- The heuristics that settings enable: Symfony, then cURL, then Guzzle. -/
def DetectorSettings.heuristics (settings : DetectorSettings) : List Heuristic :=
  (if settings.symfony.enabled then [.symfony settings.symfony] else [])
    ++ (if settings.curl.enabled then [.curl settings.curl] else [])
    ++ (if settings.guzzle.enabled then [.guzzle settings.guzzle] else [])

theorem DetectorSettings.detectors_eq (settings : DetectorSettings) :
    settings.detectors = settings.heuristics.map .fresh := by
  simp only [detectors, heuristics, List.map_append, apply_ite (List.map Detector.fresh),
    List.map_cons, List.map_nil]

namespace Audit

/-- Detectors go through a file one after the other, and are empty afterwards. -/
theorem detect_eq (file : ParsedFile) (detectors : List Detector) :
    detect file detectors =
      (detectors.flatMap fun detector =>
          (detector.findings ++ detector.heuristic.findings file.tree).map (.mk file.path),
        detectors.map fun detector => .fresh detector.heuristic) := by
  induction detectors with
  | nil => rfl
  | cons detector rest ih =>
      simp only [detect, ih, Detector.traverse_eq, Detector.take, Detector.reset, Detector.fresh,
        List.flatMap_cons, List.map_cons]

/-! ## The audit of a file -/

/-- The issues that a file has to yield: heuristic by heuristic, a finding for every
reported call. -/
def expectedIssues (settings : DetectorSettings) (path : String) (root : Node) : List Issue :=
  settings.heuristics.flatMap fun heuristic => (heuristic.findings root).map (.mk path)

/-- Detectors as the settings give them find what is expected, and come back as they
were. -/
theorem detect_detectors (settings : DetectorSettings) (file : ParsedFile) :
    detect file settings.detectors =
      (expectedIssues settings file.path file.tree, settings.detectors) := by
  rw [detect_eq, settings.detectors_eq, List.flatMap_map, List.map_map]
  simp only [Detector.fresh, List.nil_append]
  rfl

/-- A source parses when its tree has no fault, to itself with that tree. -/
theorem parse_eq_ok_iff {path : String} {source : List UInt8} {file : ParsedFile} :
    Php.parse path source = .ok file ↔
      (Php.tree source).hasFault = false ∧ file = ⟨path, source, Php.tree source⟩ := by
  simp only [Php.parse]
  split
  case isTrue faulty => simp [faulty]
  case isFalse sound =>
      rw [Except.ok.injEq]
      exact ⟨fun same => ⟨Bool.not_eq_true _ ▸ sound, same.symm⟩, fun parsed => parsed.2.symm⟩

theorem parseFile_eq_ok_iff {tree : FileTree} {path : OsText} {file : ParsedFile} :
    parseFile tree path = .ok file ↔
      ∃ source, tree.read path = .ok source ∧ Php.parse (decodeLossy path) source = .ok file := by
  unfold parseFile
  split
  case h_1 reason unreadable => simp [unreadable]
  case h_2 source readable =>
      split
      case h_1 error faulty => simp [readable, faulty]
      case h_2 parsed sound => simp [readable, sound]

/-- Fresh detectors turn a parsed file into the expected issues, divided by the
directives in its text, and come back fresh. -/
theorem auditFile_of_parsed (settings : DetectorSettings) {tree : FileTree} {path : OsText}
    {file : ParsedFile} (parsed : parseFile tree path = .ok file) :
    let name := decodeLossy path
    let expected := expectedIssues settings name file.tree
    let directives := suppressions name file.text
    auditFile tree path settings.detectors =
      (⟨name, .scanned (expected.filter fun issue => !Suppression.silences directives issue)
          (expected.filterMap (Suppression.attributed? directives))⟩,
        settings.detectors) := by
  obtain ⟨source, -, sourceParsed⟩ := parseFile_eq_ok_iff.mp parsed
  have samePath : file.path = decodeLossy path := by rw [(parse_eq_ok_iff.mp sourceParsed).2]
  simp only [auditFile, parsed, detect_detectors, Suppression.split_eq, samePath]

/-- **What the audit of one file returns.**  For a readable source that parses, the
issues are those expected that no directive of the source covers, the suppressed ones
are the others with the first directive that covers each, the file counts as scanned,
and the detectors are as good as new.  The file bears the text of its path. -/
theorem auditFile_eq_split_expected (tree : FileTree) (path : OsText) (source : List UInt8)
    (file : ParsedFile) (settings : DetectorSettings) (readable : tree.read path = .ok source)
    (parsed : Php.parse (decodeLossy path) source = .ok file) :
    let name := decodeLossy path
    let expected := expectedIssues settings name (Php.tree source)
    let directives := suppressions name (decodeLossy source)
    let audited := auditFile tree path settings.detectors
    audited.1.result =
        { issues := expected.filter fun issue => !Suppression.silences directives issue
          suppressed := expected.filterMap (Suppression.attributed? directives)
          skipped := []
          scanned := 1 } ∧
      audited.1.file = name ∧ audited.2 = settings.detectors := by
  have audited := auditFile_of_parsed settings
    (parseFile_eq_ok_iff.mpr ⟨source, readable, parsed⟩)
  obtain rfl := (parse_eq_ok_iff.mp parsed).2
  simp only [audited, FileReport.result, ParsedFile.text, and_self]

/-- A request that a directive covers, with another one inside of it on the next line. -/
def sampleSource : List UInt8 :=
  "<?php #timeoutguard:ignore-next-line *\n$api->get(\ncurl_exec());".toUTF8.toList

/-- A directory with the sample as its only file. -/
def sampleTree : FileTree := ⟨.directory [("a.php", .file sampleSource)], []⟩

/-- In the sample the inner request stays an issue and the outer one is suppressed. -/
theorem auditFile_sample :
    let audited := auditFile sampleTree "a.php" ({} : DetectorSettings).detectors
    audited.1.result.issues.map (fun issue => (issue.finding.library, issue.finding.line)) =
        [(.curl, 3)] ∧
      audited.1.result.suppressed.map (fun entry =>
        (entry.issue.finding.library, entry.issue.finding.line)) = [(.guzzle, 2)] ∧
      audited.2 = ({} : DetectorSettings).detectors := by
  have readable : sampleTree.read "a.php" = .ok sampleSource := rfl
  have sound : (Php.tree sampleSource).hasFault = false := by decide +kernel
  obtain ⟨result, -, after⟩ := auditFile_eq_split_expected sampleTree "a.php" sampleSource _ {}
    readable (parse_eq_ok_iff.mpr ⟨sound, rfl⟩)
  dsimp only
  rw [result, after]
  decide +kernel

end Audit

end TimeoutAudit
