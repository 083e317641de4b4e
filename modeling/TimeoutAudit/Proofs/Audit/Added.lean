import TimeoutAudit.Proofs.Audit.Accounting
import TimeoutAudit.Proofs.FileTree.Added
import TimeoutAudit.Proofs.Php.PlainText

/-!
# A new file, and settings that leave more out

A file that is added to a tree can be listed below a directory under names that led nowhere before.
Apart from such names, the files that are listed are those that were listed before and that the new
settings do not leave out (`Audit.chosenNames_withFile`).

If the new file is plain text, there is nothing to say about it (`Audit.fileResult_of_untagged`), so
the audit afterwards has exactly the issues, the suppressed issues and the skipped files of the one
before, in the same order, but for the files that are left out (`Audit.audit_withFile`).
-/

set_option autoImplicit false

namespace TimeoutAudit

/-- A result says what an earlier one says, in the same order, but for the files that it omits. -/
structure AuditResult.Omits (omitted : String → Bool) (earlier result : AuditResult) : Prop where
  issues : result.issues = earlier.issues.filter fun issue => !omitted issue.file
  suppressed : result.suppressed = earlier.suppressed.filter fun entry => !omitted entry.issue.file
  skipped : result.skipped = earlier.skipped.filter fun file => !omitted file.file

namespace Audit

open FileTree (pathBelow Encounter Vacant withFile)
open TimeoutAudit.Path (IsComponent)

variable {settings other : Settings} {tree : FileTree} {root : OsText} {exclusion : PathFilter}
  {names : List OsText} {location : Location}

/-! ## Names that are chosen -/

/-- The names of the files that are audited below a directory, in order. -/
def chosenNames (exclusion : PathFilter) (tree : FileTree) (root : OsText) (location : Location) :
    List (List OsText) :=
  ((tree.walk root location).filterMap Encounter.file?).filter (isChosen exclusion)

theorem chosenNames_pairwise (exclusion : PathFilter) (tree : FileTree) (root : OsText)
    (location : Location) :
    (chosenNames exclusion tree root location).Pairwise (List.Lex (· < ·)) :=
  (FileTree.walkWithin_files_pairwise _ _ _).filter _

/-- The audit below a directory is the merge of the audits of its files. -/
theorem audit_of_directory (settings : Settings) (jobs : Nat)
    (leads : tree.resolve root = .ok location) (inside : tree.view location = some .directory)
    (compiles : settings.exclusion = .ok exclusion) :
    ∃ run, audit settings jobs tree root = .ok run ∧
      run.result = .mergeAll ((chosenNames exclusion tree root location).map fun names =>
        fileResult settings tree (pathBelow root names)) := by
  obtain ⟨collection, collected, files⟩ := collect_of_directory leads inside compiles
  refine ⟨_, by rw [audit, collected], ?_⟩
  rw [auditFiles_result, files, List.map_map]
  rfl

/-- The issues of a listed file are issues of the audit. -/
theorem mem_issues_of_listed {jobs : Nat} {run : Run} {issue : Issue} (wellNamed : tree.WellNamed)
    (leads : tree.resolve root = .ok location) (inside : tree.view location = some .directory)
    (compiles : settings.exclusion = .ok exclusion)
    (audited : audit settings jobs tree root = .ok run)
    (components : ∀ name ∈ names, IsComponent name) (listed : Listed exclusion tree root names)
    (found : issue ∈ (fileResult settings tree (pathBelow root names)).issues) :
    issue ∈ run.result.issues := by
  obtain ⟨same, auditedSame, result⟩ := audit_of_directory settings jobs leads inside compiles
  obtain rfl := Except.ok.inj (auditedSame.symm.trans audited)
  rw [result, AuditResult.issues_mergeAll]
  have chosen : names ∈ chosenNames exclusion tree root location :=
    (mem_filter_isChosen_iff wellNamed leads inside).mpr ⟨components, listed⟩
  exact List.mem_flatMap.mpr ⟨names, chosen, found⟩

/-! ## Plain text -/

/-- **There is nothing to say about plain text,** except that it was looked at. -/
theorem fileResult_of_untagged (settings : Settings) {path : OsText} {content : List UInt8}
    (readable : tree.read path = .ok content) (untagged : Php.Untagged (Glyph.decode content)) :
    fileResult settings tree path = { scanned := 1 } := by
  obtain ⟨sound, noCalls⟩ := Php.sound_of_untagged untagged
  have parsed : parseFile tree path = .ok ⟨decodeLossy path, content, Php.tree content⟩ :=
    parseFile_eq_ok_iff.mpr ⟨content, readable, parse_eq_ok_iff.mpr ⟨sound, rfl⟩⟩
  have nothing : expectedIssues settings.detectors (decodeLossy path) (Php.tree content) = [] := by
    simp [expectedIssues, Heuristic.findings, noCalls]
  rw [fileResult, auditFile_of_parsed settings.detectors parsed]
  simp [FileReport.result, nothing]

/-! ## Results that omit files -/

section Omission

variable {omitted : String → Bool} {earlier later : List (List OsText)}
  {former single : List OsText → AuditResult} {kept seen : List OsText → Bool}

/-- Items that contribute nothing may be passed over. -/
theorem flatMap_filter_of_nil {Item Part : Type} {items : List Item} {kept : Item → Bool}
    {parts : Item → List Part} (none : ∀ item ∈ items, kept item = false → parts item = []) :
    (items.filter kept).flatMap parts = items.flatMap parts := by
  induction items with
  | nil => rfl
  | cons item rest ih =>
      have onward := ih fun other member => none other (List.mem_cons_of_mem _ member)
      rw [List.flatMap_cons, ← onward]
      cases isKept : kept item with
      | true => rw [List.filter_cons_of_pos isKept, List.flatMap_cons]
      | false =>
          rw [List.filter_cons_of_neg (by simp [isKept]), none item List.mem_cons_self isKept,
            List.nil_append]

variable (same : later.filter seen = earlier.filter kept)
  (silent : ∀ names ∈ later, seen names = false → single names = { scanned := 1 })
  (alike : ∀ names ∈ earlier, single names = former names)
  (sole : ∀ names, Sole (pathBelow root names) (former names))
  (agrees : ∀ names ∈ earlier, kept names = !omitted (decodeLossy (pathBelow root names)))

include same silent alike sole agrees

/-- Parts of one kind, each of which bears the label of its file. -/
theorem flatMap_omitted {Part : Type} (parts : AuditResult → List Part) (label : Part → String)
    (none : parts { scanned := 1 } = [])
    (labelled : ∀ {file : OsText} {result : AuditResult}, Sole file result →
      ∀ {part : Part}, part ∈ parts result → label part = decodeLossy file) :
    (later.flatMap fun names => parts (single names)) =
      (earlier.flatMap fun names => parts (former names)).filter fun part =>
        !omitted (label part) := by
  have own (names : List OsText) (member : names ∈ earlier) :
      (parts (former names)).filter (fun part => !omitted (label part)) =
        if kept names then parts (former names) else [] := by
    have decided : ∀ part ∈ parts (former names), (!omitted (label part)) = kept names :=
      fun part inside => by rw [labelled (sole names) inside, agrees names member]
    rw [List.filter_congr decided]
    cases kept names <;> simp
  calc
    _ = (later.filter seen).flatMap fun names => parts (single names) :=
      (flatMap_filter_of_nil fun names member unseen => by
        rw [silent names member unseen, none]).symm
    _ = (earlier.filter kept).flatMap fun names =>
          (parts (former names)).filter fun part => !omitted (label part) := by
      rw [same]
      refine List.flatMap_congr fun names member => ?_
      obtain ⟨before, isKept⟩ := List.mem_filter.mp member
      rw [alike names before, own names before, if_pos isKept]
    _ = earlier.flatMap fun names =>
          (parts (former names)).filter fun part => !omitted (label part) :=
      flatMap_filter_of_nil fun names member left => by rw [own names member, left, if_neg nofun]
    _ = _ := List.filter_flatMap.symm

/-- Results of files that are put together omit the files that are left out. -/
theorem omits_mergeAll :
    AuditResult.Omits omitted (.mergeAll (earlier.map former)) (.mergeAll (later.map single)) := by
  have omission {Part : Type} := @flatMap_omitted root omitted earlier later former single kept seen
    same silent alike sole agrees Part
  constructor
  · rw [AuditResult.issues_mergeAll, AuditResult.issues_mergeAll]
    exact omission AuditResult.issues Issue.file rfl Sole.file_of_mem_issues
  · rw [AuditResult.suppressed_mergeAll, AuditResult.suppressed_mergeAll]
    exact omission AuditResult.suppressed (fun entry => entry.issue.file) rfl
      Sole.file_of_mem_suppressed
  · rw [AuditResult.skipped_mergeAll, AuditResult.skipped_mergeAll]
    exact omission AuditResult.skipped SkippedFile.file rfl Sole.file_of_mem_skipped

end Omission

/-! ## The tree with a new file -/

section NewFile

variable {directory : Location} {name : OsText} {content : List UInt8}
  (vacant : Vacant tree directory name)

include vacant

/-- Paths to directories lead to the same places. -/
theorem resolve_withFile_of_isDirectory {path : OsText}
    (isDirectory : tree.isDirectory path = true) :
    (tree.withFile directory name content).resolve path = tree.resolve path := by
  obtain ⟨location, leads, -⟩ := FileTree.isDirectory_iff.mp isDirectory
  rw [leads, (vacant.keeps content).resolve_eq leads]

/-- **Names are listed as before,** unless they lead to the new file or are left out now. -/
theorem listed_withFile_iff :
    Listed exclusion (tree.withFile directory name content) root names ∧
        (tree.withFile directory name content).resolve (pathBelow root names) ≠
          .ok (directory ++ [name]) ↔
      Listed ⟨[]⟩ tree root names ∧ exclusion.matchesPath (relativePath names) = false := by
  have directories (path : OsText) :
      (tree.withFile directory name content).isDirectory path = true ↔
        tree.isDirectory path = true := vacant.isDirectory_withFile_iff content
  -- Between directories, to lead to the same place means the same in both trees.
  have apart {front above : List OsText}
      (isDirectory : tree.isDirectory (pathBelow root front) = true)
      (aboveDirectory : tree.isDirectory (pathBelow root above) = true) :
      (tree.withFile directory name content).resolve (pathBelow root front) ≠
          (tree.withFile directory name content).resolve (pathBelow root above) ↔
        tree.resolve (pathBelow root front) ≠ tree.resolve (pathBelow root above) := by
    rw [resolve_withFile_of_isDirectory vacant isDirectory,
      resolve_withFile_of_isDirectory vacant aboveDirectory]
  have proper {front above : List OsText} {last : OsText} (before : front ++ [last] <+: names)
      (different : front ++ [last] ≠ names) (higher : above <+: front) :
      above <+: names ∧ above ≠ names := by
    have deeper : above <+: front ++ [last] := higher.trans (List.prefix_append _ _)
    refine ⟨deeper.trans before, ?_⟩
    rintro rfl
    exact different (before.eq_of_length_le deeper.length_le)
  constructor
  · rintro ⟨listed, elsewhere⟩
    have inside (front : List OsText) (before : front <+: names) (different : front ≠ names) :=
      (directories _).mp (listed.inside front before different)
    refine ⟨⟨listed.visible, inside, ?_, ?_, listed.extension, rfl⟩, listed.kept⟩
    · intro front last before different link above higher
      obtain ⟨aboveBefore, aboveDifferent⟩ := proper before different higher
      refine (apart (inside _ before different) (inside _ aboveBefore aboveDifferent)).mp ?_
      exact listed.acyclic front last before different
        ((vacant.isLink_withFile_iff content).mpr link) above higher
    · exact (vacant.isFile_withFile_iff content).mp ⟨listed.isFile, elsewhere⟩
  · rintro ⟨listed, kept⟩
    obtain ⟨isFile, elsewhere⟩ := (vacant.isFile_withFile_iff content).mpr listed.isFile
    have inside (front : List OsText) (before : front <+: names) (different : front ≠ names) :=
      (directories _).mpr (listed.inside front before different)
    refine ⟨⟨listed.visible, inside, ?_, isFile, listed.extension, kept⟩, elsewhere⟩
    intro front last before different link above higher
    obtain ⟨aboveBefore, aboveDifferent⟩ := proper before different higher
    refine (apart (listed.inside _ before different)
      (listed.inside _ aboveBefore aboveDifferent)).mpr ?_
    exact listed.acyclic front last before different
      ((vacant.isLink_withFile_iff content).mp link) above higher

variable (wellNamed : tree.WellNamed) (fileName : FileTree.FileName name)
  (leads : tree.resolve root = .ok location) (inside : tree.view location = some .directory)

include wellNamed fileName leads inside

/-- **The files that are audited afterwards,** but for the new one, are those that were audited
before and that are not left out. -/
theorem chosenNames_withFile :
    (chosenNames exclusion (tree.withFile directory name content) root location).filter
        (fun names => (tree.withFile directory name content).resolve (pathBelow root names) ≠
          .ok (directory ++ [name])) =
      (chosenNames ⟨[]⟩ tree root location).filter fun names =>
        !exclusion.matchesPath (relativePath names) := by
  have leadsNow := (vacant.keeps content).resolve_eq leads
  have insideNow := (vacant.keeps content).directory inside
  refine List.Pairwise.eq_of_mem_iff ((chosenNames_pairwise _ _ _ _).filter _)
    ((chosenNames_pairwise _ _ _ _).filter _) fun names => ?_
  rw [List.mem_filter, List.mem_filter, chosenNames, chosenNames,
    mem_filter_isChosen_iff (wellNamed.withFile vacant.inside fileName content) leadsNow insideNow,
    mem_filter_isChosen_iff wellNamed leads inside, decide_eq_true_iff, Bool.not_eq_true',
    and_assoc, and_assoc, listed_withFile_iff vacant]

omit wellNamed fileName leads inside in
/-- A file has the result that it had before, if the detectors are the same. -/
theorem fileResult_withFile {path : OsText} (detectors : other.detectors = settings.detectors)
    (isFile : tree.isFile path = true) :
    fileResult other (tree.withFile directory name content) path =
      fileResult settings tree path := by
  rw [fileResult, fileResult, auditFile, auditFile, parseFile, parseFile,
    vacant.read_withFile content isFile, detectors]

/-- **An audit after a file was added.**  If the new file is plain text and the detectors are the
same, it omits the files that are left out now, and says the same of all others. -/
theorem audit_withFile (jobs : Nat) {omitted : String → Bool}
    (untagged : Php.Untagged (Glyph.decode content))
    (nothingLeftOut : settings.exclusion = .ok ⟨[]⟩) (compiles : other.exclusion = .ok exclusion)
    (detectors : other.detectors = settings.detectors)
    (agrees : ∀ names ∈ chosenNames ⟨[]⟩ tree root location,
      exclusion.matchesPath (relativePath names) =
        omitted (decodeLossy (pathBelow root names))) :
    ∃ before after, audit settings jobs tree root = .ok before ∧
      audit other jobs (tree.withFile directory name content) root = .ok after ∧
      before.result.Omits omitted after.result := by
  obtain ⟨before, audited, result⟩ := audit_of_directory settings jobs leads inside nothingLeftOut
  obtain ⟨after, auditedNow, resultNow⟩ := audit_of_directory other jobs
    ((vacant.keeps content).resolve_eq leads) ((vacant.keeps content).directory inside) compiles
  refine ⟨before, after, audited, auditedNow, ?_⟩
  rw [result, resultNow]
  refine omits_mergeAll (chosenNames_withFile vacant wellNamed fileName leads inside) ?_ ?_
    (fun names => sole_fileResult settings tree (pathBelow root names)) ?_
  · intro names _ unseen
    have newFile : (tree.withFile directory name content).resolve (pathBelow root names) =
        .ok (directory ++ [name]) := by simpa using unseen
    have readable := FileTree.read_eq_ok_iff.mpr ⟨_, newFile, vacant.view_place content⟩
    exact fileResult_of_untagged other readable untagged
  · intro names member
    have listed := ((mem_filter_isChosen_iff wellNamed leads inside).mp member).2
    exact fileResult_withFile vacant detectors listed.isFile
  · intro names member
    rw [agrees names member]

end NewFile

end Audit

end TimeoutAudit
