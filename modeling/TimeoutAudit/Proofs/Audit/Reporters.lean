import Mathlib.Data.List.Nodup
import Mathlib.Data.List.Perm.Basic
import TimeoutAudit.Proofs.Detection

/-!
# Which libraries report a call

A file is searched heuristic by heuristic.  What is found can as well be told call by call: every
call gives rise to one issue for each library that reports it, and the issues of a file, silenced
or not, are those of its calls (`Audit.found_perm`).

Among the libraries that report a call none comes twice, and cURL is alone.  The heuristic for
Guzzle leaves a call on a client variable to another library only if it is a request with a verb,
and these are reported for Symfony whatever they are made on, so that no such call is lost
(`Audit.client_calls_reported`).
-/

set_option autoImplicit false

namespace TimeoutAudit

open Php (Node ParsedFile)

/-! ## Libraries of a call -/

namespace DetectorSettings

/-- The libraries that report a call, in the order of their heuristics. -/
def reporters (settings : DetectorSettings) (call : CallSite) : List Library :=
  (settings.heuristics.filter fun heuristic => Reported heuristic call).map Heuristic.library

variable (settings : DetectorSettings)

theorem libraries_sublist :
    (settings.heuristics.map Heuristic.library).Sublist [.symfony, .curl, .guzzle] := by
  have one (enabled : Bool) (heuristic : Heuristic) :
      ((if enabled then [heuristic] else []).map Heuristic.library).Sublist
        [heuristic.library] := by
    cases enabled with
    | false => exact List.nil_sublist _
    | true => exact List.Sublist.refl _
  rw [heuristics, List.map_append, List.map_append]
  exact ((one _ _).append (one _ _)).append (one _ _)

theorem reporters_nodup (call : CallSite) : (settings.reporters call).Nodup := by
  have once : ([.symfony, .curl, .guzzle] : List Library).Nodup := by decide
  refine once.sublist (List.Sublist.trans ?_ settings.libraries_sublist)
  exact List.filter_sublist.map _

variable {settings} {call : CallSite}

theorem mem_reporters_iff {library : Library} :
    library ∈ settings.reporters call ↔
      ∃ heuristic ∈ settings.heuristics, Reported heuristic call ∧
        heuristic.library = library := by
  simp only [reporters, List.mem_map, List.mem_filter, decide_eq_true_eq, and_assoc]

theorem mem_heuristics_iff {heuristic : Heuristic} :
    heuristic ∈ settings.heuristics ↔
      (settings.symfony.enabled = true ∧ heuristic = .symfony settings.symfony) ∨
      (settings.curl.enabled = true ∧ heuristic = .curl settings.curl) ∨
      (settings.guzzle.enabled = true ∧ heuristic = .guzzle settings.guzzle) := by
  have one (enabled : Bool) (own : Heuristic) :
      heuristic ∈ (if enabled then [own] else []) ↔ enabled = true ∧ heuristic = own := by
    cases enabled <;> simp
  simp only [heuristics, List.mem_append, one, or_assoc]

theorem symfony_mem_reporters (enabled : settings.symfony.enabled = true)
    (reported : Reported (.symfony settings.symfony) call) :
    .symfony ∈ settings.reporters call :=
  mem_reporters_iff.mpr ⟨_, mem_heuristics_iff.mpr (.inl ⟨enabled, rfl⟩), reported, rfl⟩

theorem guzzle_mem_reporters_iff (enabled : settings.guzzle.enabled = true) :
    .guzzle ∈ settings.reporters call ↔ Reported (.guzzle settings.guzzle) call := by
  constructor
  · intro reporter
    obtain ⟨heuristic, listed, reported, library⟩ := mem_reporters_iff.mp reporter
    rcases mem_heuristics_iff.mp listed with ⟨-, rfl⟩ | ⟨-, rfl⟩ | ⟨-, rfl⟩
    · cases library
    · cases library
    · exact reported
  · intro reported
    exact mem_reporters_iff.mpr
      ⟨_, mem_heuristics_iff.mpr (.inr (.inr ⟨enabled, rfl⟩)), reported, rfl⟩

/-- Only cURL reports free functions, and it reports nothing else. -/
theorem kind_of_mem_reporters {library : Library} (reporter : library ∈ settings.reporters call) :
    call.kind = if library = .curl then .function else .method := by
  obtain ⟨heuristic, -, reported, rfl⟩ := mem_reporters_iff.mp reporter
  cases heuristic with
  | symfony symfony => exact reported.1
  | curl curl => exact reported.1
  | guzzle guzzle => exact reported.1

/-- cURL shares a call with no other library. -/
theorem reporters_eq_of_curl (reporter : .curl ∈ settings.reporters call) :
    settings.reporters call = [.curl] := by
  have function := kind_of_mem_reporters reporter
  have only : ∀ library ∈ settings.reporters call, library = .curl := by
    intro library other
    have kind := kind_of_mem_reporters other
    rw [function, if_pos rfl] at kind
    by_contra different
    rw [if_neg different] at kind
    cases kind
  refine List.perm_singleton.mp ((List.perm_ext_iff_of_nodup (settings.reporters_nodup call)
    (List.nodup_singleton _)).mpr fun library => ?_)
  rw [List.mem_singleton]
  exact ⟨only library, fun same => same ▸ reporter⟩

end DetectorSettings

/-! ## Calls on client variables -/

/-- A call of one of the request methods on a bare variable that is listed as a client, without
an option that sets a timeout. -/
structure CallSite.OnClient (settings : GuzzleSettings) (call : CallSite) : Prop where
  kind : call.kind = .method
  method : call.name ∈ ["request", "get", "post", "put", "delete", "patch", "head", "options"]
  receiver : ∃ name ∈ settings.clientVariables, call.receiver = some (.variable name)
  untimed : ¬ call.SetsTimeout

/-- A call is left to another library: it is a request with a verb, on a foreign variable. -/
def CallSite.LeftToOthers (settings : GuzzleSettings) (call : CallSite) : Prop :=
  call.name = "request" ∧ call.StartsWithVerb ∧
    ∃ name ∈ settings.foreignVariables, call.receiver = some (.variable name)

namespace CallSite.OnClient

variable {settings : GuzzleSettings} {call : CallSite}

/-- Guzzle reports a call on a client unless it is left to others. -/
theorem reported_iff (client : call.OnClient settings) :
    Reported (.guzzle settings) call ↔ ¬ call.LeftToOthers settings := by
  obtain ⟨kind, method, ⟨name, listed, receiver⟩, untimed⟩ := client
  constructor
  · rintro ⟨-, -, ⟨other, otherReceiver, -, notForeign⟩, -⟩ ⟨request, verb, foreign, listed, same⟩
    obtain rfl : other = foreign := by simpa [otherReceiver] using same
    exact notForeign ⟨request, verb, listed⟩
  · intro kept
    refine ⟨kind, method, ⟨name, receiver, listed, ?_⟩, untimed⟩
    rintro ⟨request, verb, foreign⟩
    exact kept ⟨request, verb, name, foreign, receiver⟩

/-- What is left to others, Symfony reports, whatever its own settings are. -/
theorem reported_of_leftToOthers (client : call.OnClient settings)
    (left : call.LeftToOthers settings) (symfony : SymfonySettings) :
    Reported (.symfony symfony) call :=
  ⟨client.kind, left.1, .inl left.2.1, client.untimed⟩

end CallSite.OnClient

/-! ## Issues of a file, call by call -/

namespace Audit

/-- The issues that a call gives rise to. -/
def issuesAt (settings : DetectorSettings) (path : String) (call : CallSite) : List Issue :=
  (settings.reporters call).map fun library => ⟨path, .missingTimeout library call⟩

/-- A table can be gone through by rows or by columns. -/
theorem rows_perm_columns {Row Column Cell : Type} (marked : Row → Column → Bool)
    (cell : Row → Column → Cell) (rows : List Row) (columns : List Column) :
    (rows.flatMap fun row => (columns.filter (marked row)).map (cell row)).Perm
      (columns.flatMap fun column => (rows.filter (marked · column)).map (cell · column)) := by
  induction rows with
  | nil => simp
  | cons row others ih =>
      have inRow : (columns.filter (marked row)).map (cell row) =
          columns.flatMap fun column => if marked row column then [cell row column] else [] := by
        rw [← List.filterMap_eq_map, List.filterMap_filter, List.filterMap_eq_flatMap_toList]
        refine congrArg (List.flatMap · columns) (funext fun column => ?_)
        cases marked row column <;> rfl
      have inColumn (column : Column) :
          ((row :: others).filter (marked · column)).map (cell · column) =
            (if marked row column then [cell row column] else []) ++
              (others.filter (marked · column)).map (cell · column) := by
        rw [List.filter_cons]
        cases marked row column <;> rfl
      simp only [List.flatMap_cons, inRow, inColumn]
      exact (List.Perm.append_left _ ih).trans (List.flatMap_append_perm _ _ _)

/-- **Going through heuristics or through calls finds the same.** -/
theorem expectedIssues_perm (settings : DetectorSettings) (path : String) (root : Node) :
    (expectedIssues settings path root).Perm
      ((callsInPreOrder root).flatMap (issuesAt settings path)) := by
  have atCall : issuesAt settings path = fun call =>
      (settings.heuristics.filter fun heuristic => Reported heuristic call).map fun heuristic =>
        ⟨path, .missingTimeout heuristic.library call⟩ := by
    funext call
    exact List.map_map
  simp only [expectedIssues, Heuristic.findings, List.map_map, atCall]
  exact rows_perm_columns (fun heuristic call => decide (Reported heuristic call))
    (fun heuristic call => Issue.mk path (.missingTimeout heuristic.library call)) _ _

/-- What a result says about a file, silenced or not. -/
def found (result : AuditResult) : List Issue :=
  result.issues ++ result.suppressed.map SuppressedIssue.issue

/-- **The issues of a file, silenced or not, are those of its calls.** -/
theorem found_perm (settings : DetectorSettings) {tree : FileTree} {path : OsText}
    {file : ParsedFile} (parsed : parseFile tree path = .ok file) :
    (found (auditFile tree path settings.detectors).1.result).Perm
      ((callSites file).flatMap (issuesAt settings (decodeLossy path))) := by
  rw [auditFile_of_parsed settings parsed, callSites_eq]
  exact (Suppression.split_perm _ _).trans (expectedIssues_perm settings _ file.tree)

/-- **No call on a client is lost.**  The issues of a parsed file, silenced or not, are those that
its calls give rise to, each with one issue for every library that reports it; no library reports a
call twice, and cURL shares no call with another.  With the detectors for Guzzle and Symfony on, a
call on a client variable that sets no timeout has an issue of one of the two; Guzzle leaves it
out exactly if it is a request with a verb on a foreign variable, and then Symfony reports it. -/
theorem client_calls_reported (settings : DetectorSettings) (tree : FileTree) (path : OsText)
    (file : ParsedFile) (parsed : parseFile tree path = .ok file) :
    let name := decodeLossy path
    let issues := found (auditFile tree path settings.detectors).1.result
    issues.Perm ((callSites file).flatMap (issuesAt settings name)) ∧
      (∀ call, (settings.reporters call).Nodup ∧
        (.curl ∈ settings.reporters call → settings.reporters call = [.curl])) ∧
      (settings.guzzle.enabled = true → settings.symfony.enabled = true →
        ∀ call ∈ callSites file, call.OnClient settings.guzzle →
          (∃ library ∈ [Library.guzzle, .symfony], library ∈ settings.reporters call ∧
            ⟨name, .missingTimeout library call⟩ ∈ issues) ∧
          (.guzzle ∉ settings.reporters call ↔ call.LeftToOthers settings.guzzle) ∧
          (call.LeftToOthers settings.guzzle → .symfony ∈ settings.reporters call ∧
            ⟨name, .missingTimeout .symfony call⟩ ∈ issues)) := by
  intro name issues
  have whole : issues.Perm ((callSites file).flatMap (issuesAt settings name)) :=
    found_perm settings parsed
  refine ⟨whole, ?_, ?_⟩
  · intro call
    exact ⟨settings.reporters_nodup call, DetectorSettings.reporters_eq_of_curl⟩
  · intro guzzle symfony call member client
    have listed {library : Library} (reporter : library ∈ settings.reporters call) :
        ⟨name, .missingTimeout library call⟩ ∈ issues :=
      whole.mem_iff.mpr (List.mem_flatMap.mpr ⟨call, member, List.mem_map.mpr ⟨_, reporter, rfl⟩⟩)
    have bySymfony (left : call.LeftToOthers settings.guzzle) :
        .symfony ∈ settings.reporters call :=
      DetectorSettings.symfony_mem_reporters symfony (client.reported_of_leftToOthers left _)
    have byGuzzle : .guzzle ∈ settings.reporters call ↔ ¬ call.LeftToOthers settings.guzzle :=
      (DetectorSettings.guzzle_mem_reporters_iff guzzle).trans client.reported_iff
    refine ⟨?_, (not_congr byGuzzle).trans not_not, fun left => ?_⟩
    · by_cases left : call.LeftToOthers settings.guzzle
      · exact ⟨.symfony, by decide, bySymfony left, listed (bySymfony left)⟩
      · exact ⟨.guzzle, by decide, byGuzzle.mpr left, listed (byGuzzle.mpr left)⟩
    · exact ⟨bySymfony left, listed (bySymfony left)⟩

/-- A request with a verb on a variable that is listed both as a client and as foreign. -/
def foreignSource : List UInt8 := "<?php $httpClient->request('get', $url);".toUTF8.toList

/-- A directory with the request in its only file. -/
def foreignTree : FileTree := ⟨.directory [("a.php", .file foreignSource)], []⟩

/-- The request is left to Symfony, and the file has its issue. -/
theorem client_calls_reported_foreign :
    ∃ call : CallSite, call.OnClient {} ∧ call.LeftToOthers {} ∧
      ({} : DetectorSettings).reporters call = [.symfony] ∧
      ⟨"a.php", .missingTimeout .symfony call⟩ ∈
        found (auditFile foreignTree "a.php" ({} : DetectorSettings).detectors).1.result := by
  have sound : (Php.tree foreignSource).hasFault = false := by decide +kernel
  have parsed : parseFile foreignTree "a.php" =
      .ok ⟨"a.php", foreignSource, Php.tree foreignSource⟩ :=
    parseFile_eq_ok_iff.mpr ⟨foreignSource, rfl,
      parse_eq_ok_iff.mpr ⟨sound, by rw [Text.decodeLossy_bytes]⟩⟩
  let call : CallSite := ⟨.method, "request", some (.variable "httpClient"),
    [⟨none, .literal "get"⟩, ⟨none, .other⟩], 1⟩
  have member : call ∈ callSites ⟨"a.php", foreignSource, Php.tree foreignSource⟩ := by
    rw [callSites_eq]
    decide +kernel
  have untimed : ¬ call.SetsTimeout := by
    intro timed
    have option := (call.hasOption_iff "timeout").mpr timed
    cases option
  have client : call.OnClient {} := ⟨rfl, by decide, ⟨"httpClient", by decide, rfl⟩, untimed⟩
  have left : call.LeftToOthers {} :=
    ⟨rfl, ⟨"get", _, rfl, by decide⟩, "httpClient", by decide, rfl⟩
  obtain ⟨-, -, reported⟩ := client_calls_reported {} foreignTree "a.php" _ parsed
  rw [Text.decodeLossy_bytes] at reported
  obtain ⟨-, -, bySymfony⟩ := reported rfl rfl call member client
  exact ⟨call, client, left, by decide, (bySymfony left).2⟩

end Audit

end TimeoutAudit
