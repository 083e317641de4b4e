import TimeoutAudit.Proofs.Audit.Collection

/-!
# Every file has its own account

The result of an audit is put together from the results of audits of single files
(`Audit.auditFiles_result`), and every such result is of one of two kinds: the file is skipped and
has nothing else to show, or it is scanned and all that is found in it bears its name
(`Audit.Sole`).  The name is the text that is shown for the path, so what bears a name in the whole
is what the files that are shown by it give by themselves (`Audit.accounts_of_sole`), and this is a
single file if the name is without U+FFFD (`Audit.shownAlone_bytes`).

`Audit.audit_accounts` says so of every audit, and that a collected file can be audited by itself.
-/

set_option autoImplicit false

namespace TimeoutAudit

/-! ## Parts of merged results -/

namespace AuditResult

variable {Part : Type} (single : Part → AuditResult) (parts : List Part)

theorem issues_mergeAll :
    (mergeAll (parts.map single)).issues = parts.flatMap fun part => (single part).issues := by
  simp only [mergeAll_eq, List.flatMap_map]

theorem suppressed_mergeAll :
    (mergeAll (parts.map single)).suppressed =
      parts.flatMap fun part => (single part).suppressed := by
  simp only [mergeAll_eq, List.flatMap_map]

theorem skipped_mergeAll :
    (mergeAll (parts.map single)).skipped = parts.flatMap fun part => (single part).skipped := by
  simp only [mergeAll_eq, List.flatMap_map]

theorem scanned_mergeAll :
    (mergeAll (parts.map single)).scanned =
      parts.foldl (fun total part => total + (single part).scanned) 0 := by
  rw [mergeAll_eq, List.foldl_map]

theorem mergeAll_singleton (result : AuditResult) : mergeAll [result] = result := by
  simp [mergeAll, merge, empty]

end AuditResult

namespace Audit

open FileTree (pathBelow)

/-! ## Lists that are put together from labelled parts -/

/-- Names as they are shown stand for files, which come in the order of others, each as often as
wanted. -/
def InOrderOf (files : List OsText) (listed : List String) : Prop :=
  ∃ origins : List OsText, origins.map decodeLossy = listed ∧ origins ⊆ files ∧
    origins.Pairwise fun first second => files.idxOf first ≤ files.idxOf second

theorem pairwise_idxOf_of_nodup {files : List OsText} (once : files.Nodup) :
    files.Pairwise fun first second => files.idxOf first ≤ files.idxOf second := by
  rw [List.pairwise_iff_getElem]
  intro position later inside laterInside before
  rw [once.idxOf_getElem, once.idxOf_getElem]
  exact Nat.le_of_lt before

/-- No other of the files is shown as this one is. -/
def ShownAlone (files : List OsText) (file : OsText) : Prop :=
  ∀ other ∈ files, decodeLossy other = decodeLossy file → other = file

/-- A text without U+FFFD is shown for one file only. -/
theorem shownAlone_bytes (files : List OsText) {text : String} (clean : '\uFFFD' ∉ text.toList) :
    ShownAlone files (Text.bytes text) := by
  intro other _ same
  rw [Text.decodeLossy_bytes] at same
  exact (Text.decodeLossy_eq_iff clean).mp same

theorem ShownAlone.filter_eq {files : List OsText} {file : OsText} (alone : ShownAlone files file) :
    files.filter (decodeLossy · == decodeLossy file) = List.replicate (files.count file) file := by
  rw [← List.filter_beq]
  refine List.filter_congr fun other member => ?_
  rw [Bool.eq_iff_iff, beq_iff_eq, beq_iff_eq]
  exact ⟨alone other member, congrArg decodeLossy⟩

theorem ShownAlone.flatMap_filter {files : List OsText} {file : OsText}
    (alone : ShownAlone files file) (once : files.Nodup) (member : file ∈ files) {Part : Type}
    (parts : OsText → List Part) :
    (files.filter (decodeLossy · == decodeLossy file)).flatMap parts = parts file := by
  rw [alone.filter_eq, List.count_eq_one_of_mem once member, List.replicate_one,
    List.flatMap_singleton]

section Labelled

variable {Part : Type} {label : Part → String} {parts : OsText → List Part} {files : List OsText}
  (labelled : ∀ file ∈ files, ∀ part ∈ parts file, label part = decodeLossy file)

include labelled

theorem inOrderOf_flatMap (once : files.Nodup) :
    InOrderOf files ((files.flatMap parts).map label) := by
  refine ⟨files.flatMap fun file => (parts file).map fun _ => file, ?_, ?_, ?_⟩
  · rw [List.map_flatMap, List.map_flatMap]
    refine List.flatMap_congr fun file member => ?_
    rw [List.map_map]
    exact List.map_congr_left fun part inParts => (labelled file member part inParts).symm
  · intro file listed
    obtain ⟨origin, member, inParts⟩ := List.mem_flatMap.mp listed
    obtain ⟨part, -, rfl⟩ := List.mem_map.mp inParts
    exact member
  · rw [List.pairwise_flatMap]
    constructor
    · intro file member
      rw [List.pairwise_map]
      exact List.pairwise_of_forall fun _ _ => le_refl _
    · refine (pairwise_idxOf_of_nodup once).imp ?_
      intro file later ordered first firstMember second secondMember
      obtain ⟨-, -, rfl⟩ := List.mem_map.mp firstMember
      obtain ⟨-, -, rfl⟩ := List.mem_map.mp secondMember
      exact ordered

/-- The parts that bear a name are those of the files that are shown by it. -/
theorem filter_flatMap_label (name : String) :
    (files.flatMap parts).filter (label · == name) =
      (files.filter (decodeLossy · == name)).flatMap parts := by
  induction files with
  | nil => rfl
  | cons first rest ih =>
      have others := ih fun file later => labelled file (List.mem_cons_of_mem _ later)
      have own := labelled first List.mem_cons_self
      rw [List.flatMap_cons, List.filter_append, others]
      by_cases named : decodeLossy first = name
      · have all : (parts first).filter (label · == name) = parts first :=
          List.filter_eq_self.mpr fun part member => beq_iff_eq.mpr ((own part member).trans named)
        rw [all, List.filter_cons_of_pos (p := (decodeLossy · == name)) (beq_iff_eq.mpr named),
          List.flatMap_cons]
      · have none : (parts first).filter (label · == name) = [] :=
          List.filter_eq_nil_iff.mpr fun part member bears =>
            named ((own part member).symm.trans (eq_of_beq bears))
        rw [none, List.nil_append, List.filter_cons_of_neg (by simpa using named)]

end Labelled

/-! ## The result of one file -/

/-- What the audit of one file results in: the file is skipped and has nothing else to show, or it
is scanned and whatever is found in it bears its name. -/
inductive Sole (file : OsText) : AuditResult → Prop where
  | skipped (reason : String) : Sole file { skipped := [⟨decodeLossy file, reason⟩] }
  | scanned (issues : List Issue) (suppressed : List SuppressedIssue)
      (ownIssues : ∀ issue ∈ issues, issue.file = decodeLossy file)
      (ownSuppressed : ∀ entry ∈ suppressed, entry.issue.file = decodeLossy file) :
      Sole file { issues := issues, suppressed := suppressed, scanned := 1 }

/-- The result of a file that is audited by itself. -/
def fileResult (settings : Settings) (tree : FileTree) (file : OsText) : AuditResult :=
  (auditFile tree file settings.detectors.detectors).1.result

theorem sole_fileResult (settings : Settings) (tree : FileTree) (file : OsText) :
    Sole file (fileResult settings tree file) := by
  have own (issue : Issue) := @mem_expected_of_mem_result settings.detectors tree file issue
  unfold fileResult
  cases parsed : parseFile tree file with
  | error reason =>
      simp only [auditFile, parsed]
      exact .skipped reason.message
  | ok parsedFile =>
      rw [auditFile_of_parsed settings.detectors parsed] at own ⊢
      exact .scanned _ _ (fun issue reported => (own issue (.inl reported)).1)
        fun entry reported => (own _ (.inr ⟨entry, reported, rfl⟩)).1

/-- The result of several files is that of each, one after the other. -/
theorem auditFiles_result (settings : Settings) (jobs : Nat) (tree : FileTree)
    (files : List OsText) :
    (auditFiles settings jobs tree files).result =
      .mergeAll (files.map (fileResult settings tree)) := by
  simp only [auditFiles, reports_eq_apart, apart, List.map_map]
  rfl

/-! ## The accounts of several files -/

/-- The result of several files, against the result of each.  Files differ by their bytes, while
results name them as they are shown. -/
structure Accounts (files : List OsText) (single : OsText → AuditResult)
    (whole : AuditResult) : Prop where
  merged : whole = .mergeAll (files.map single)
  total : whole.scanned + whole.skipped.length = files.length
  /-- A file is skipped once and has nothing else to show, or is counted as scanned, once. -/
  either : ∀ file ∈ files,
    ((single file).scanned = 0 ∧ (single file).skipped.map SkippedFile.file = [decodeLossy file] ∧
      (single file).issues = [] ∧ (single file).suppressed = []) ∨
    ((single file).scanned = 1 ∧ (single file).skipped = [])
  scanned : whole.scanned = files.countP fun file => (single file).scanned = 1
  skipped : whole.skipped.map SkippedFile.file =
    (files.filter fun file => (single file).scanned = 0).map decodeLossy
  issuesInOrder : InOrderOf files (whole.issues.map Issue.file)
  suppressedInOrder : InOrderOf files (whole.suppressed.map fun entry => entry.issue.file)
  skippedInOrder : InOrderOf files (whole.skipped.map SkippedFile.file)
  /-- What bears a name is what the files that are shown by it give by themselves. -/
  issuesOf : ∀ name, whole.issues.filter (Issue.file · == name) =
    (files.filter (decodeLossy · == name)).flatMap fun file => (single file).issues
  suppressedOf : ∀ name, whole.suppressed.filter (fun entry => entry.issue.file == name) =
    (files.filter (decodeLossy · == name)).flatMap fun file => (single file).suppressed
  skippedOf : ∀ name, whole.skipped.filter (SkippedFile.file · == name) =
    (files.filter (decodeLossy · == name)).flatMap fun file => (single file).skipped
  /-- A file that is shown like no other has all that bears its name. -/
  ofAlone : ∀ file ∈ files, ShownAlone files file →
    whole.issues.filter (Issue.file · == decodeLossy file) = (single file).issues ∧
    whole.suppressed.filter (fun entry => entry.issue.file == decodeLossy file) =
      (single file).suppressed ∧
    whole.skipped.filter (SkippedFile.file · == decodeLossy file) = (single file).skipped

namespace Sole

variable {file : OsText} {result : AuditResult}

theorem file_of_mem_issues (sole : Sole file result) {issue : Issue}
    (member : issue ∈ result.issues) : issue.file = decodeLossy file := by
  cases sole with
  | skipped reason => cases member
  | scanned issues suppressed ownIssues ownSuppressed => exact ownIssues issue member

theorem file_of_mem_suppressed (sole : Sole file result) {entry : SuppressedIssue}
    (member : entry ∈ result.suppressed) : entry.issue.file = decodeLossy file := by
  cases sole with
  | skipped reason => cases member
  | scanned issues suppressed ownIssues ownSuppressed => exact ownSuppressed entry member

theorem file_of_mem_skipped (sole : Sole file result) {entry : SkippedFile}
    (member : entry ∈ result.skipped) : entry.file = decodeLossy file := by
  cases sole with
  | skipped reason => rw [List.mem_singleton.mp member]
  | scanned issues suppressed ownIssues ownSuppressed => cases member

/-- A file is either skipped, alone and once, or scanned, and once. -/
theorem skipped_or_scanned (sole : Sole file result) :
    (result.scanned = 0 ∧ result.skipped.map SkippedFile.file = [decodeLossy file] ∧
      result.issues = [] ∧ result.suppressed = []) ∨
    (result.scanned = 1 ∧ result.skipped = []) := by
  cases sole with
  | skipped reason => exact .inl ⟨rfl, rfl, rfl, rfl⟩
  | scanned issues suppressed ownIssues ownSuppressed => exact .inr ⟨rfl, rfl⟩

end Sole

section Files

variable {files : List OsText} {single : OsText → AuditResult}
  (sole : ∀ file ∈ files, Sole file (single file))

include sole

/-- The files that are skipped are those that are not scanned. -/
theorem skipped_files_eq :
    (AuditResult.mergeAll (files.map single)).skipped.map SkippedFile.file =
      (files.filter fun file => (single file).scanned = 0).map decodeLossy := by
  rw [AuditResult.skipped_mergeAll, List.map_flatMap]
  induction files with
  | nil => rfl
  | cons first rest ih =>
      have others := ih fun file later => sole file (List.mem_cons_of_mem _ later)
      rw [List.flatMap_cons, others]
      rcases (sole first List.mem_cons_self).skipped_or_scanned with
        ⟨none, skipped, -, -⟩ | ⟨one, skipped⟩
      · simp [skipped, none]
      · simp [skipped, one]

/-- Every other file is counted as scanned, once. -/
theorem scanned_eq_countP :
    (AuditResult.mergeAll (files.map single)).scanned =
      files.countP fun file => (single file).scanned = 1 := by
  have counted (start : Nat) : files.foldl (fun total file => total + (single file).scanned) start =
      start + files.countP fun file => (single file).scanned = 1 := by
    induction files generalizing start with
    | nil => rfl
    | cons first rest ih =>
        rw [List.foldl_cons, ih fun file later => sole file (List.mem_cons_of_mem _ later),
          List.countP_cons]
        rcases (sole first List.mem_cons_self).skipped_or_scanned with ⟨none, -⟩ | ⟨one, -⟩
        · simp [none]
        · simp only [one, decide_true, if_true]
          omega
  rw [AuditResult.scanned_mergeAll, counted, Nat.zero_add]

/-- The issues that bear a name are those of the files that are shown by it. -/
theorem filter_issues_eq (name : String) :
    (AuditResult.mergeAll (files.map single)).issues.filter (Issue.file · == name) =
      (files.filter (decodeLossy · == name)).flatMap fun file => (single file).issues := by
  rw [AuditResult.issues_mergeAll]
  exact filter_flatMap_label (fun file member _ => (sole file member).file_of_mem_issues) name

theorem filter_suppressed_eq (name : String) :
    (AuditResult.mergeAll (files.map single)).suppressed.filter
        (fun entry => entry.issue.file == name) =
      (files.filter (decodeLossy · == name)).flatMap fun file => (single file).suppressed := by
  rw [AuditResult.suppressed_mergeAll]
  exact filter_flatMap_label (fun file member _ => (sole file member).file_of_mem_suppressed) name

theorem filter_skipped_eq (name : String) :
    (AuditResult.mergeAll (files.map single)).skipped.filter (SkippedFile.file · == name) =
      (files.filter (decodeLossy · == name)).flatMap fun file => (single file).skipped := by
  rw [AuditResult.skipped_mergeAll]
  exact filter_flatMap_label (fun file member _ => (sole file member).file_of_mem_skipped) name

/-- **Accounts add up** as soon as every file has a result of its own and none comes twice. -/
theorem accounts_of_sole (once : files.Nodup) :
    Accounts files single (.mergeAll (files.map single)) where
  merged := rfl
  total := by
    have skipped : (files.filter fun file => (single file).scanned = 0) =
        files.filter fun file => ¬(single file).scanned = 1 := by
      refine List.filter_congr fun file member => ?_
      rcases (sole file member).skipped_or_scanned with ⟨none, -⟩ | ⟨one, -⟩
      · simp [none]
      · simp [one]
    rw [scanned_eq_countP sole, ← List.length_map SkippedFile.file, skipped_files_eq sole,
      List.length_map, skipped, ← List.countP_eq_length_filter,
      List.length_eq_countP_add_countP fun file => (single file).scanned = 1]
    simp
  either file member := (sole file member).skipped_or_scanned
  scanned := scanned_eq_countP sole
  skipped := skipped_files_eq sole
  issuesInOrder := by
    rw [AuditResult.issues_mergeAll]
    exact inOrderOf_flatMap (fun file member _ => (sole file member).file_of_mem_issues) once
  suppressedInOrder := by
    rw [AuditResult.suppressed_mergeAll]
    exact inOrderOf_flatMap (fun file member _ => (sole file member).file_of_mem_suppressed) once
  skippedInOrder := by
    rw [AuditResult.skipped_mergeAll]
    exact inOrderOf_flatMap (fun file member _ => (sole file member).file_of_mem_skipped) once
  issuesOf := filter_issues_eq sole
  suppressedOf := filter_suppressed_eq sole
  skippedOf := filter_skipped_eq sole
  ofAlone file member alone := by
    rw [filter_issues_eq sole, filter_suppressed_eq sole, filter_skipped_eq sole]
    exact ⟨alone.flatMap_filter once member _, alone.flatMap_filter once member _,
      alone.flatMap_filter once member _⟩

end Files

/-! ## Collected files by themselves -/

section Collected

variable {settings : Settings} {tree : FileTree} {root : OsText} {collection : Collection}

theorem collect_of_isFile {path : OsText} (isFile : tree.isFile path = true) :
    collect settings tree path = .ok ⟨[path], []⟩ := by
  obtain ⟨location, content, leads, file⟩ := FileTree.isFile_iff.mp isFile
  rw [collect_eq, leads]
  simp [file]

/-- Files are collected from a path to a file, or below a directory. -/
theorem collected_cases (collected : collect settings tree root = .ok collection) :
    collection = ⟨[root], []⟩ ∨
      (tree.isDirectory root = true ∧ ∃ exclusion, settings.exclusion = .ok exclusion) := by
  have cases := collected
  rw [collect_eq] at cases
  cases leads : tree.resolve root with
  | error reason => simp [leads] at cases
  | ok location =>
      by_cases inside : tree.view location = some .directory
      · refine .inr ⟨FileTree.isDirectory_iff.mpr ⟨location, leads, inside⟩, ?_⟩
        cases compiles : settings.exclusion with
        | error defect => simp [leads, inside, compiles] at cases
        | ok exclusion => exact ⟨exclusion, rfl⟩
      · simp only [leads, inside, if_false, Except.ok.injEq] at cases
        exact .inl cases.symm

variable (wellNamed : tree.WellNamed) (collected : collect settings tree root = .ok collection)

include wellNamed collected

theorem files_nodup : collection.files.Nodup := by
  rcases collected_cases collected with rfl | ⟨isDirectory, exclusion, compiles⟩
  · exact List.nodup_singleton root
  · obtain ⟨same, paths, sameCollected, files, listed, ordered⟩ :=
      collection_names wellNamed isDirectory compiles
    obtain rfl : collection = same := Except.ok.inj (collected.symm.trans sameCollected)
    obtain ⟨location, leads, -⟩ := FileTree.isDirectory_iff.mp isDirectory
    rw [files]
    exact nodup_map_pathBelow (FileTree.ne_empty_of_resolve leads)
      (fun names member => (listed names member).1) ordered

/-- A collected file is what is collected from its own path. -/
theorem collect_of_mem_files {file : OsText} (member : file ∈ collection.files) :
    collect settings tree file = .ok ⟨[file], []⟩ := by
  rcases collected_cases collected with rfl | ⟨isDirectory, exclusion, compiles⟩
  · rw [List.mem_singleton.mp member]
    exact collected
  · obtain ⟨same, paths, sameCollected, files, listed, -⟩ :=
      collection_names wellNamed isDirectory compiles
    obtain rfl : collection = same := Except.ok.inj (collected.symm.trans sameCollected)
    rw [files, List.mem_map] at member
    obtain ⟨names, namesMember, rfl⟩ := member
    exact collect_of_isFile (listed names namesMember).2.isFile

end Collected

/-- The audit of a path to a file. -/
def ownRun (settings : Settings) (tree : FileTree) (file : OsText) : Run where
  paths := [file]
  result := fileResult settings tree file
  log := [⟨.debug, "analyzing " ++ toString 1 ++ " file(s) under " ++ decodeLossy file⟩,
    (auditFile tree file settings.detectors.detectors).1.log]

theorem audit_of_collect {settings : Settings} {tree : FileTree} {file : OsText}
    (alone : collect settings tree file = .ok ⟨[file], []⟩) (jobs : Nat) :
    audit settings jobs tree file = .ok (ownRun settings tree file) := by
  have result := auditFiles_result settings jobs tree [file]
  rw [List.map_singleton, AuditResult.mergeAll_singleton] at result
  simp only [audit, alone, result, ownRun]
  simp only [auditFiles, reports_eq_apart]
  rfl

/-- The sample beside a file that does not parse. -/
def mixedTree : FileTree where
  root := .directory [("p", .directory [("b.php", .file "<?php (".toUTF8.toList),
    ("a.php", .file sampleSource)])]
  here := []

end Audit

end TimeoutAudit
