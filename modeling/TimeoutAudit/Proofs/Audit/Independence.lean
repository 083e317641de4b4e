import TimeoutAudit.Proofs.Audit.Accounting

/-!
# Detectors do not interfere

All detectors go through the same files, their findings stand in one list, and one pass divides
this list by the directives of the file.  Still the settings of one detector are nobody else's
business.  What an audit says apart from a library is what it says when the detector of this
library is off (`Audit.auditFiles_without`), and then the settings of this detector are not read at
all.

`Audit.auditFiles_independent` puts it as a statement about two audits whose settings differ only
under one detector.
-/

set_option autoImplicit false

namespace TimeoutAudit

open Php (Node)

/-! ## Settings that differ under one detector -/

/-- Whether the detector of a library is on. -/
def DetectorSettings.isEnabled (settings : DetectorSettings) : Library → Bool
  | .guzzle => settings.guzzle.enabled
  | .symfony => settings.symfony.enabled
  | .curl => settings.curl.enabled

/-- The settings with the detector of a library switched off. -/
def DetectorSettings.without (settings : DetectorSettings) : Library → DetectorSettings
  | .guzzle => { settings with guzzle.enabled := false }
  | .symfony => { settings with symfony.enabled := false }
  | .curl => { settings with curl.enabled := false }

/-- Settings that are the same, except for what stands under the detector of one library. -/
structure Settings.SameApartFrom (library : Library) (first second : Settings) : Prop where
  version : first.version = second.version
  excludedPaths : first.excludedPaths = second.excludedPaths
  guzzle : library ≠ .guzzle → first.detectors.guzzle = second.detectors.guzzle
  symfony : library ≠ .symfony → first.detectors.symfony = second.detectors.symfony
  curl : library ≠ .curl → first.detectors.curl = second.detectors.curl

namespace DetectorSettings

/-- Switching a detector off takes its heuristic out of the list and leaves the others in place. -/
theorem heuristics_without (settings : DetectorSettings) (library : Library) :
    (settings.without library).heuristics =
      settings.heuristics.filter fun heuristic => heuristic.library ≠ library := by
  have kept (enabled : Bool) {heuristic : Heuristic} (other : heuristic.library ≠ library) :
      (if enabled then [heuristic] else []).filter (fun each => each.library ≠ library) =
        if enabled then [heuristic] else [] := by
    cases enabled with
    | false => rfl
    | true => exact List.filter_cons_of_pos (by simpa using other)
  have dropped (enabled : Bool) {heuristic : Heuristic} (own : heuristic.library = library) :
      (if enabled then [heuristic] else []).filter (fun each => each.library ≠ library) = [] := by
    cases enabled with
    | false => rfl
    | true => exact List.filter_cons_of_neg (by simpa using own)
  rw [heuristics, heuristics, List.filter_append, List.filter_append]
  cases library with
  | guzzle => rw [kept _ Library.noConfusion, kept _ Library.noConfusion, dropped _ rfl]; rfl
  | symfony => rw [dropped _ rfl, kept _ Library.noConfusion, kept _ Library.noConfusion]; rfl
  | curl => rw [kept _ Library.noConfusion, dropped _ rfl, kept _ Library.noConfusion]; rfl

theorem without_eq_self {settings : DetectorSettings} {library : Library}
    (off : settings.isEnabled library = false) : settings.without library = settings := by
  obtain ⟨guzzle, symfony, curl⟩ := settings
  cases library with
  | guzzle => cases guzzle; cases off; rfl
  | symfony => cases symfony; cases off; rfl
  | curl => cases curl; cases off; rfl

/-- What stands under a detector that is off is not read. -/
theorem heuristics_without_eq {library : Library} {first second : Settings}
    (same : Settings.SameApartFrom library first second) :
    (first.detectors.without library).heuristics =
      (second.detectors.without library).heuristics := by
  cases library with
  | guzzle =>
      simp only [heuristics, without, same.symfony Library.noConfusion,
        same.curl Library.noConfusion]
      rfl
  | symfony =>
      simp only [heuristics, without, same.guzzle Library.noConfusion,
        same.curl Library.noConfusion]
      rfl
  | curl =>
      simp only [heuristics, without, same.guzzle Library.noConfusion,
        same.symfony Library.noConfusion]
      rfl

end DetectorSettings

/-! ## Results apart from a library -/

/-- What a result says apart from one library. -/
def AuditResult.apartFrom (library : Library) (result : AuditResult) : AuditResult where
  issues := result.issues.filter fun issue => issue.finding.library ≠ library
  suppressed := result.suppressed.filter fun entry => entry.issue.finding.library ≠ library
  skipped := result.skipped
  scanned := result.scanned

namespace AuditResult

variable (library : Library)

theorem apartFrom_merge (first second : AuditResult) :
    (merge first second).apartFrom library =
      merge (first.apartFrom library) (second.apartFrom library) := by
  simp only [apartFrom, merge, List.filter_append]

theorem apartFrom_mergeAll (results : List AuditResult) :
    (mergeAll results).apartFrom library = mergeAll (results.map (apartFrom library)) := by
  have folded (start : AuditResult) : (results.foldl merge start).apartFrom library =
      (results.map (apartFrom library)).foldl merge (start.apartFrom library) := by
    induction results generalizing start with
    | nil => rfl
    | cons first others ih =>
        rw [List.foldl_cons, ih, apartFrom_merge]
        rfl
  exact folded empty

end AuditResult

namespace Audit

variable (library : Library)

/-- A heuristic reports on its own library only. -/
theorem filter_findings (heuristic : Heuristic) (path : String) (root : Node) :
    ((heuristic.findings root).map (Issue.mk path)).filter
        (fun issue => issue.finding.library ≠ library) =
      if heuristic.library ≠ library then (heuristic.findings root).map (Issue.mk path)
      else [] := by
  have own : ∀ issue ∈ (heuristic.findings root).map (Issue.mk path),
      issue.finding.library = heuristic.library := by
    intro issue member
    simp only [Heuristic.findings, List.map_map, List.mem_map] at member
    obtain ⟨call, -, rfl⟩ := member
    rfl
  split
  case isTrue other =>
    refine List.filter_eq_self.mpr fun issue member => ?_
    simpa [own issue member] using other
  case isFalse same =>
    refine List.filter_eq_nil_iff.mpr fun issue member => ?_
    simpa [own issue member] using same

/-- What is expected apart from a library is what is expected without its detector. -/
theorem expectedIssues_without (settings : DetectorSettings) (path : String) (root : Node) :
    expectedIssues (settings.without library) path root =
      (expectedIssues settings path root).filter fun issue => issue.finding.library ≠ library := by
  simp only [expectedIssues, settings.heuristics_without]
  induction settings.heuristics with
  | nil => rfl
  | cons first others ih =>
      rw [List.flatMap_cons, List.filter_append, filter_findings, ← ih, List.filter_cons]
      simp only [decide_eq_true_eq]
      split
      · rfl
      · rfl

/-- Directives silence an issue whatever else is in the list. -/
theorem filterMap_attributed?_filter (directives : List Suppression) (issues : List Issue) :
    (issues.filterMap (Suppression.attributed? directives)).filter
        (fun entry => entry.issue.finding.library ≠ library) =
      (issues.filter fun issue => issue.finding.library ≠ library).filterMap
        (Suppression.attributed? directives) := by
  rw [List.filter_filterMap, List.filterMap_filter]
  refine List.filterMap_congr fun issue _ => ?_
  rw [Suppression.attributed?]
  cases directives.find? (·.covers issue) with
  | none => simp
  | some suppression => simp [Option.filter_some]

/-- Leaving a library out of the result of a file is the same as switching its detector off. -/
theorem auditFile_without (settings : DetectorSettings) (tree : FileTree) (path : OsText) :
    (auditFile tree path (settings.without library).detectors).1.result =
      (auditFile tree path settings.detectors).1.result.apartFrom library := by
  cases parsed : parseFile tree path with
  | error reason => simp [auditFile, parsed, FileReport.result, AuditResult.apartFrom]
  | ok file =>
      rw [auditFile_of_parsed _ parsed, auditFile_of_parsed _ parsed]
      simp only [FileReport.result, AuditResult.apartFrom, expectedIssues_without,
        filterMap_attributed?_filter, AuditResult.mk.injEq, and_true]
      exact List.filter_comm _ _ _

/-! ## Several files -/

/-- Settings that enable the same heuristics have the same result. -/
theorem auditFiles_result_eq {first second : Settings}
    (same : first.detectors.heuristics = second.detectors.heuristics) (jobs otherJobs : Nat)
    (tree : FileTree) (paths : List OsText) :
    (auditFiles first jobs tree paths).result =
      (auditFiles second otherJobs tree paths).result := by
  have detectors : first.detectors.detectors = second.detectors.detectors := by
    rw [DetectorSettings.detectors_eq, same, DetectorSettings.detectors_eq]
  have singles : fileResult first tree = fileResult second tree := by
    funext path
    rw [fileResult, detectors, fileResult]
  rw [auditFiles_result, auditFiles_result, singles]

/-- **Leaving a library out of a result is the same as switching its detector off.** -/
theorem auditFiles_without (settings : Settings) (jobs : Nat) (tree : FileTree)
    (paths : List OsText) :
    (auditFiles { settings with detectors := settings.detectors.without library } jobs tree
        paths).result = (auditFiles settings jobs tree paths).result.apartFrom library := by
  rw [auditFiles_result, auditFiles_result, AuditResult.apartFrom_mergeAll, List.map_map]
  refine congrArg AuditResult.mergeAll (List.map_congr_left fun path _ => ?_)
  exact auditFile_without library settings.detectors tree path

/-- **The settings of one detector change nothing for the others.**  Two audits of the same files,
with settings that differ only under the detector of one library, skip and scan the same, and apart
from this library they list the same issues and the same suppressed issues, in the same order.  If
the second has the detector switched off, these are all that it lists. -/
theorem auditFiles_independent (first second : Settings) (jobs otherJobs : Nat) (tree : FileTree)
    (paths : List OsText) (same : Settings.SameApartFrom library first second) :
    let original := (auditFiles first jobs tree paths).result
    let changed := (auditFiles second otherJobs tree paths).result
    let issuesOfOthers := original.issues.filter fun issue => issue.finding.library ≠ library
    let suppressedOfOthers :=
      original.suppressed.filter fun entry => entry.issue.finding.library ≠ library
    changed.skipped = original.skipped ∧ changed.scanned = original.scanned ∧
      changed.issues.filter (fun issue => issue.finding.library ≠ library) = issuesOfOthers ∧
      changed.suppressed.filter (fun entry => entry.issue.finding.library ≠ library) =
        suppressedOfOthers ∧
      (second.detectors.isEnabled library = false →
        changed.issues = issuesOfOthers ∧ changed.suppressed = suppressedOfOthers) := by
  intro original changed issuesOfOthers suppressedOfOthers
  -- Both audits are compared with the ones that have the detector off.
  have others : changed.apartFrom library = original.apartFrom library := by
    rw [← auditFiles_without, ← auditFiles_without]
    exact auditFiles_result_eq (DetectorSettings.heuristics_without_eq same).symm _ _ tree paths
  obtain ⟨issues, suppressed, skipped, scanned⟩ := AuditResult.mk.inj others
  refine ⟨skipped, scanned, issues, suppressed, fun off => ?_⟩
  have alone : changed = original.apartFrom library := by
    rw [← others, ← auditFiles_without, DetectorSettings.without_eq_self off]
  exact ⟨congrArg AuditResult.issues alone, congrArg AuditResult.suppressed alone⟩

/-- In the sample a request of Guzzle is suppressed around one of cURL that is not.  Without the
detector for Guzzle the issue of cURL is still there, and the missing file is still skipped. -/
theorem auditFiles_independent_sample :
    let off : Settings := { detectors.guzzle.enabled := false }
    let original := (auditFiles {} 1 sampleTree ["a.php", "b.php"]).result
    let changed := (auditFiles off 4 sampleTree ["a.php", "b.php"]).result
    original.suppressed.length = 1 ∧ changed.suppressed = [] ∧
      original.issues.length = 1 ∧ changed.issues = original.issues ∧
      original.skipped.length = 1 ∧ changed.skipped = original.skipped := by
  intro off original changed
  obtain ⟨skipped, -, -, -, whenOff⟩ := auditFiles_independent .guzzle {} off 1 4 sampleTree
    ["a.php", "b.php"] ⟨rfl, rfl, fun own => absurd rfl own, fun _ => rfl, fun _ => rfl⟩
  obtain ⟨issues, suppressed⟩ := whenOff rfl
  have found : original.suppressed.length = 1 ∧ original.issues.length = 1 ∧
      original.skipped.length = 1 ∧
      (original.suppressed.filter fun entry => entry.issue.finding.library ≠ .guzzle) = [] ∧
      (original.issues.filter fun issue => issue.finding.library ≠ .guzzle) = original.issues := by
    decide +kernel
  obtain ⟨oneSuppressed, oneIssue, oneSkipped, noOther, noGuzzle⟩ := found
  exact ⟨oneSuppressed, suppressed.trans noOther, oneIssue, issues.trans noGuzzle, oneSkipped,
    skipped⟩

end Audit

end TimeoutAudit
