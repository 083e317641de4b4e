import TimeoutAudit.Proofs.Audit.Accounting
import TimeoutAudit.Proofs.Audit.Reporters
import TimeoutAudit.Proofs.Php.CallOrder

/-!
# Findings come in source order

The calls of a file come in source order, and a detector picks some of them, so what one traversal
finds is on lines that never go back (`Heuristic.pairwise_line_findings`).  Detectors walk a file
one after the other, each for a library of its own, and the division by directives only leaves
issues out; so the issues of one library in one file are sorted by line
(`Audit.sortedByLine_fileResult`).

In the result of several files, a name has the issues of the files that are shown by it, file after
file (`Audit.filter_isOf_auditFiles`), so that a file has its issues once for every time that it is
listed.  No file is collected twice, so in the audit of a path the issues of one file and one
library are sorted by line (`Audit.sortedByLine_of_once`).  A list of files may name a file twice,
and then they are not (`Audit.not_sortedByLine_listed_twice`).
-/

set_option autoImplicit false

namespace TimeoutAudit

open Php (ParsedFile)

/-- The lines of the issues never go back. -/
def SortedByLine (issues : List Issue) : Prop :=
  issues.Pairwise fun first second => first.finding.line ≤ second.finding.line

instance (issues : List Issue) : Decidable (SortedByLine issues) :=
  inferInstanceAs (Decidable (issues.Pairwise _))

/-- The issue is about a request of the library in the file. -/
def Issue.isOf (file : String) (library : Library) (issue : Issue) : Bool :=
  issue.finding.library == library && issue.file == file

/-! ## One traversal -/

theorem Heuristic.pairwise_line_findings {path : String} {source : List UInt8}
    {file : ParsedFile} (parsed : Php.parse path source = .ok file) (heuristic : Heuristic) :
    (heuristic.findings file.tree).Pairwise fun first second => first.line ≤ second.line := by
  rw [findings, List.pairwise_map, ← callSites_eq]
  exact (Php.pairwise_line_callSites parsed).filter _

namespace Audit

/-! ## One file -/

theorem pairwise_library_heuristics (settings : DetectorSettings) :
    settings.heuristics.Pairwise fun first second => first.library ≠ second.library := by
  have once : ([.symfony, .curl, .guzzle] : List Library).Nodup := by decide
  exact List.pairwise_map.mp (once.sublist settings.libraries_sublist)

/-- Issues of one library are on lines that never go back. -/
theorem pairwise_expectedIssues (settings : DetectorSettings) {path : String}
    {source : List UInt8} {file : ParsedFile} (parsed : Php.parse path source = .ok file) :
    (expectedIssues settings path file.tree).Pairwise fun first second =>
      first.finding.library = second.finding.library →
        first.finding.line ≤ second.finding.line := by
  rw [expectedIssues, List.pairwise_flatMap]
  constructor
  · intro heuristic _
    rw [List.pairwise_map]
    refine (heuristic.pairwise_line_findings parsed).imp ?_
    intro first second ordered _
    exact ordered
  · refine (pairwise_library_heuristics settings).imp ?_
    intro one two differ first inOne second inTwo same
    have library {heuristic : Heuristic} {issue : Issue}
        (member : issue ∈ (heuristic.findings file.tree).map (.mk path)) :
        issue.finding.library = heuristic.library := by
      obtain ⟨finding, found, rfl⟩ := List.mem_map.mp member
      obtain ⟨call, -, rfl⟩ := List.mem_map.mp found
      rfl
    rw [library inOne, library inTwo] at same
    exact absurd same differ

/-- **The issues of one library in one file are sorted by line.** -/
theorem sortedByLine_fileResult (settings : Settings) (tree : FileTree) (file : OsText)
    (library : Library) :
    SortedByLine ((fileResult settings tree file).issues.filter
      (·.finding.library == library)) := by
  unfold fileResult
  cases parsed : parseFile tree file with
  | error reason =>
      simp only [auditFile, parsed]
      exact .nil
  | ok parsedFile =>
      obtain ⟨source, -, sourceParsed⟩ := parseFile_eq_ok_iff.mp parsed
      rw [auditFile_of_parsed settings.detectors parsed]
      have ordered := (pairwise_expectedIssues settings.detectors sourceParsed).filter
        fun issue => !Suppression.silences (suppressions (decodeLossy file) parsedFile.text) issue
      refine List.pairwise_filter.mpr (ordered.imp ?_)
      intro first second sorted ofFirst ofSecond
      exact sorted ((eq_of_beq ofFirst).trans (eq_of_beq ofSecond).symm)

/-! ## Several files -/

/-- **A name has the issues of the files that are shown by it,** file after file. -/
theorem filter_isOf_auditFiles (settings : Settings) (jobs : Nat) (tree : FileTree)
    (files : List OsText) (name : String) (library : Library) :
    (auditFiles settings jobs tree files).result.issues.filter (Issue.isOf name library) =
      (files.filter (decodeLossy · == name)).flatMap fun file =>
        (fileResult settings tree file).issues.filter (·.finding.library == library) := by
  have labelled (file : OsText) (issue : Issue)
      (member : issue ∈ (fileResult settings tree file).issues) : issue.file = decodeLossy file :=
    (sole_fileResult settings tree file).file_of_mem_issues member
  rw [auditFiles_result, AuditResult.issues_mergeAll, ← List.filter_flatMap,
    ← filter_flatMap_label fun file _ => labelled file, List.filter_filter]
  rfl

/-- The issues of a file that comes once are sorted by line if those of every file are. -/
theorem sortedByLine_of_once {files : List OsText} {file : OsText} {own : OsText → List Issue}
    (sorted : ∀ file, SortedByLine (own file)) (once : files.Nodup)
    (alone : ShownAlone files file) :
    SortedByLine ((files.filter (decodeLossy · == decodeLossy file)).flatMap own) := by
  rw [alone.filter_eq]
  rcases Nat.le_one_iff_eq_zero_or_eq_one.mp (List.nodup_iff_count_le_one.mp once file) with
    none | one
  · rw [none]
    exact .nil
  · rw [one, List.replicate_one, List.flatMap_singleton]
    exact sorted file

/-- An audit of a path is one of a list of files that names no file twice. -/
theorem audit_of_list {settings : Settings} {jobs : Nat} {tree : FileTree} {root : OsText}
    {run : Run} (wellNamed : tree.WellNamed) (audited : audit settings jobs tree root = .ok run) :
    run.result = (auditFiles settings jobs tree run.paths).result ∧ run.paths.Nodup := by
  unfold audit at audited
  split at audited
  · cases audited
  · next collection collected =>
      cases audited
      exact ⟨rfl, files_nodup wellNamed collected⟩

/-- **Findings come in source order.**  The call sites of a source that parses are on lines that
never go back, each of them a line of the source, and so is what one traversal adds to the findings
of a detector.  The issues of one file and one library are sorted by line: a list of files gives
them once for every time that it names the file, and a path to be audited gives them once.  Files
that are shown alike have them one file after the other. -/
theorem lines_never_go_back :
    (∀ path source file, Php.parse path source = .ok file →
      ((callSites file).Pairwise fun first second => first.line ≤ second.line) ∧
      (∀ call ∈ callSites file, 1 ≤ call.line ∧ call.line ≤ 1 + source.count 0x0A) ∧
      ∀ detector : Detector, ∃ found,
        (detector.traverse file).findings = detector.findings ++ found ∧
        found.Pairwise fun first second => first.line ≤ second.line) ∧
    ∀ settings tree library, ∃ own : OsText → List Issue, (∀ file, SortedByLine (own file)) ∧
      (∀ jobs files name,
        (auditFiles settings jobs tree files).result.issues.filter (Issue.isOf name library) =
          (files.filter (decodeLossy · == name)).flatMap own) ∧
      (∀ jobs files file, ShownAlone files file →
        (auditFiles settings jobs tree files).result.issues.filter
            (Issue.isOf (decodeLossy file) library) =
          (List.replicate (files.count file) (own file)).flatten) ∧
      ∀ jobs root run, tree.WellNamed → audit settings jobs tree root = .ok run →
        run.result = (auditFiles settings jobs tree run.paths).result ∧ run.paths.Nodup ∧
        ∀ file, ShownAlone run.paths file →
          SortedByLine (run.result.issues.filter (Issue.isOf (decodeLossy file) library)) := by
  constructor
  · intro path source file parsed
    refine ⟨Php.pairwise_line_callSites parsed, fun _ => Php.line_bounds parsed, fun detector => ?_⟩
    refine ⟨_, ?_, detector.heuristic.pairwise_line_findings parsed⟩
    rw [detector.traverse_eq]
  · intro settings tree library
    have sorted (file : OsText) := sortedByLine_fileResult settings tree file library
    refine ⟨_, sorted, fun jobs files name => ?_, fun jobs files file alone => ?_,
      fun jobs root run wellNamed audited => ?_⟩
    · exact filter_isOf_auditFiles settings jobs tree files name library
    · rw [filter_isOf_auditFiles, alone.filter_eq, List.flatMap_replicate]
    · obtain ⟨ofList, once⟩ := audit_of_list wellNamed audited
      refine ⟨ofList, once, fun file alone => ?_⟩
      rw [ofList, filter_isOf_auditFiles]
      exact sortedByLine_of_once sorted once alone

/-- Requests on two lines, one of them inside of another. -/
def nestedSource : List UInt8 :=
  "<?php\ncurl_exec(\ncurl_exec($a)); curl_exec($b);".toUTF8.toList

/-- A directory with these requests as its only file. -/
def nestedTree : FileTree := ⟨.directory [("a.php", .file nestedSource)], []⟩

/-- The outer request stands before the inner one, and both before the one behind them. -/
theorem lines_never_go_back_nested :
    (∃ file, Php.parse "a.php" nestedSource = .ok file ∧
      (callSites file).map CallSite.line = [2, 3, 3] ∧
      (callSites file).Pairwise fun first second => first.line ≤ second.line) ∧
    ∃ run, audit {} 1 nestedTree "a.php" = .ok run ∧
      (run.result.issues.filter (Issue.isOf "a.php" .curl)).length = 3 ∧
      SortedByLine (run.result.issues.filter (Issue.isOf "a.php" .curl)) := by
  have parsed : Php.parse "a.php" nestedSource =
      .ok ⟨"a.php", nestedSource, Php.tree nestedSource⟩ :=
    parse_eq_ok_iff.mpr ⟨by decide +kernel, rfl⟩
  have audited : audit {} 1 nestedTree "a.php" = .ok (ownRun {} nestedTree "a.php") :=
    audit_of_collect (collect_of_isFile (by decide +kernel)) 1
  obtain ⟨inFile, inResult⟩ := lines_never_go_back
  obtain ⟨own, -, -, -, ofPath⟩ := inResult {} nestedTree .curl
  obtain ⟨-, -, sorted⟩ := ofPath 1 "a.php" _ (by decide +kernel) audited
  refine ⟨⟨_, parsed, by decide +kernel, (inFile _ _ _ parsed).1⟩,
    ⟨_, audited, by decide +kernel, ?_⟩⟩
  have same := sorted "a.php" (shownAlone_bytes _ (by decide))
  rwa [Text.decodeLossy_bytes] at same

/-- A file that is listed twice has its issues twice, and behind the last line comes the first
one again. -/
theorem not_sortedByLine_listed_twice :
    ¬ SortedByLine ((auditFiles {} 1 nestedTree
      [Text.bytes "a.php", Text.bytes "a.php"]).result.issues.filter
      (Issue.isOf "a.php" .curl)) := by
  decide +kernel

end Audit

end TimeoutAudit
