import TimeoutAudit.Proofs.Detection

/-!
# Auditing files in turn, apart, and in any order

With one job, the same detectors go from file to file.  They are as good as new
after every file, also after one that is skipped (`Audit.auditFile_snd`), and this
holds along every list of files, so that the reports are those of audits with
detectors of their own (`Audit.inTurn_eq_apart`).

With several jobs, files are finished in an order that nobody controls.  Every
report is put in the slot of its file, so the slots hold the same reports in the
same places once all files are done (`Audit.pooled_eq_apart`).

Whatever the number of jobs, the result is the same, and an issue listed under a
file is one that this very file yields (`Audit.auditFiles_jobs_agree`).
-/

set_option autoImplicit false

namespace TimeoutAudit

/-! ## Merged results -/

namespace AuditResult

/-- Results that are merged one by one are put together part by part. -/
theorem foldl_merge (results : List AuditResult) (start : AuditResult) :
    results.foldl merge start =
      { issues := start.issues ++ results.flatMap issues
        suppressed := start.suppressed ++ results.flatMap suppressed
        skipped := start.skipped ++ results.flatMap skipped
        scanned := results.foldl (fun total result => total + result.scanned) start.scanned } := by
  induction results generalizing start with
  | nil => simp
  | cons first others ih =>
      rw [List.foldl_cons, ih]
      simp only [merge, List.flatMap_cons, List.append_assoc, List.foldl_cons]

theorem mergeAll_eq (results : List AuditResult) :
    mergeAll results =
      { issues := results.flatMap issues
        suppressed := results.flatMap suppressed
        skipped := results.flatMap skipped
        scanned := results.foldl (fun total result => total + result.scanned) 0 } := by
  rw [mergeAll, foldl_merge]
  simp [empty]

end AuditResult

namespace Audit

variable (settings : DetectorSettings) (tree : FileTree)

/-! ## One file after another -/

/-- Detectors that are as good as new stay so, whatever becomes of the file. -/
theorem auditFile_snd (path : OsText) :
    (auditFile tree path settings.detectors).2 = settings.detectors := by
  cases parsed : parseFile tree path with
  | error reason => simp only [auditFile, parsed]
  | ok file => rw [auditFile_of_parsed settings parsed]

/-- **Files audited in turn are files audited apart.** -/
theorem inTurn_eq_apart (paths : List OsText) :
    inTurn tree settings.detectors paths = apart tree settings paths := by
  induction paths with
  | nil => rfl
  | cons path rest ih =>
      show (auditFile tree path settings.detectors).1 ::
          inTurn tree (auditFile tree path settings.detectors).2 rest = _
      rw [auditFile_snd, ih]
      rfl

theorem reports_eq_apart (all : Settings) (jobs : Nat) (paths : List OsText) :
    reports all jobs tree paths = apart tree all.detectors paths := by
  unfold reports
  split
  · exact inTurn_eq_apart all.detectors tree paths
  · rfl

/-! ## A pool of workers -/

/-- The file at a position is done, by a worker with detectors of its own, and its
report is put in its slot. -/
def deliver (paths : List OsText) (slots : List (Option FileReport)) (position : Nat) :
    List (Option FileReport) :=
  slots.set position
    (paths[position]?.map fun path => (auditFile tree path settings.detectors).1)

/-- The slots of a pool after files were done in the given order. -/
def pooled (paths : List OsText) (order : List Nat) : List (Option FileReport) :=
  order.foldl (deliver settings tree paths) (List.replicate paths.length none)

/-- A slot holds the report of its file as soon as the file is done, and is not
touched by any other. -/
theorem getElem?_foldl_deliver (paths : List OsText) (order : List Nat)
    (slots : List (Option FileReport)) (position : Nat) (inside : position < slots.length) :
    (order.foldl (deliver settings tree paths) slots)[position]? =
      if position ∈ order then
        some (paths[position]?.map fun path => (auditFile tree path settings.detectors).1)
      else slots[position]? := by
  induction order generalizing slots with
  | nil => simp
  | cons done later ih =>
      have stillInside : position < (deliver settings tree paths slots done).length := by
        rw [deliver, List.length_set]
        exact inside
      rw [List.foldl_cons, ih _ stillInside]
      by_cases again : position ∈ later
      · simp [again]
      · by_cases here : done = position
        · subst here
          simp [again, deliver, inside]
        · simp [again, deliver, here, Ne.symm here]

theorem length_foldl_deliver (paths : List OsText) (order : List Nat)
    (slots : List (Option FileReport)) :
    (order.foldl (deliver settings tree paths) slots).length = slots.length := by
  induction order generalizing slots with
  | nil => rfl
  | cons done later ih => rw [List.foldl_cons, ih, deliver, List.length_set]

/-- **The order in which files are done does not matter.** -/
theorem pooled_eq_apart (paths : List OsText) (order : List Nat)
    (complete : ∀ position < paths.length, position ∈ order) :
    pooled settings tree paths order = (apart tree settings paths).map some := by
  apply List.ext_getElem?
  intro position
  by_cases inside : position < paths.length
  · rw [pooled, getElem?_foldl_deliver _ _ _ _ _ _ (by simpa using inside),
      if_pos (complete position inside)]
    simp [apart, inside]
  · have outside : (pooled settings tree paths order).length ≤ position := by
      rw [pooled, length_foldl_deliver, List.length_replicate]
      omega
    rw [List.getElem?_eq_none outside, List.getElem?_eq_none (by simp [apart]; omega)]

/-! ## Findings stay with their file -/

theorem file_of_mem_expectedIssues {path : String} {root : Php.Node} {issue : Issue}
    (expected : issue ∈ expectedIssues settings path root) : issue.file = path := by
  simp only [expectedIssues, List.mem_flatMap, List.mem_map] at expected
  obtain ⟨heuristic, -, finding, -, rfl⟩ := expected
  rfl

/-- What a single audit reports under a path, the file of this path yields. -/
theorem mem_expected_of_mem_result {path : OsText} {issue : Issue}
    (reported : issue ∈ (auditFile tree path settings.detectors).1.result.issues ∨
      ∃ entry ∈ (auditFile tree path settings.detectors).1.result.suppressed,
        entry.issue = issue) :
    issue.file = decodeLossy path ∧ ∃ file, parseFile tree path = .ok file ∧
      issue ∈ expectedIssues settings (decodeLossy path) file.tree := by
  cases parsed : parseFile tree path with
  | error reason => simp [auditFile, parsed, FileReport.result] at reported
  | ok file =>
      rw [auditFile_of_parsed settings parsed] at reported
      simp only [FileReport.result, List.mem_filter, List.mem_filterMap, Suppression.attributed?,
        Option.map_eq_some_iff] at reported
      have expected : issue ∈ expectedIssues settings (decodeLossy path) file.tree := by
        rcases reported with ⟨member, -⟩ | ⟨entry, ⟨other, member, suppression, -, rfl⟩, rfl⟩
        · exact member
        · exact member
      exact ⟨file_of_mem_expectedIssues settings expected, file, rfl, expected⟩

/-- Merged reports hold an issue only if one of them does. -/
theorem mem_mergeAll_apart {paths : List OsText} {issue : Issue}
    (reported : issue ∈ (AuditResult.mergeAll
        ((apart tree settings paths).map FileReport.result)).issues ∨
      ∃ entry ∈ (AuditResult.mergeAll
        ((apart tree settings paths).map FileReport.result)).suppressed, entry.issue = issue) :
    ∃ path ∈ paths, issue.file = decodeLossy path ∧ ∃ file, parseFile tree path = .ok file ∧
      issue ∈ expectedIssues settings (decodeLossy path) file.tree := by
  simp only [AuditResult.mergeAll_eq, apart, List.map_map, List.mem_flatMap, List.mem_map,
    Function.comp_apply] at reported
  rcases reported with ⟨result, ⟨path, member, rfl⟩, reported⟩ |
    ⟨entry, ⟨result, ⟨path, member, rfl⟩, reported⟩, same⟩
  · exact ⟨path, member, mem_expected_of_mem_result settings tree (.inl reported)⟩
  · exact ⟨path, member, mem_expected_of_mem_result settings tree (.inr ⟨entry, reported, same⟩)⟩

/-! ## Any number of jobs -/

/-- **The number of jobs and the order of completion change nothing.**  Reused
detectors give the reports of separate ones, a pool gives them in any order of
completion, the results are the same for all numbers of jobs, and every issue, silenced
or not, is listed under the file that yields it. -/
theorem auditFiles_jobs_agree (all : Settings) (paths : List OsText) :
    inTurn tree all.detectors.detectors paths = apart tree all.detectors paths ∧
      (∀ order : List Nat, (∀ position < paths.length, position ∈ order) →
        pooled all.detectors tree paths order =
            (inTurn tree all.detectors.detectors paths).map some ∧
          .mergeAll (((pooled all.detectors tree paths order).filterMap id).map FileReport.result) =
            (auditFiles all 1 tree paths).result) ∧
      (∀ jobs, (auditFiles all jobs tree paths).result = (auditFiles all 1 tree paths).result) ∧
      ∀ jobs issue, (issue ∈ (auditFiles all jobs tree paths).result.issues ∨
          ∃ entry ∈ (auditFiles all jobs tree paths).result.suppressed, entry.issue = issue) →
        ∃ path ∈ paths, issue.file = decodeLossy path ∧ ∃ file, parseFile tree path = .ok file ∧
          issue ∈ expectedIssues all.detectors (decodeLossy path) file.tree := by
  refine ⟨inTurn_eq_apart all.detectors tree paths, ?_, ?_, ?_⟩
  · intro order complete
    have slots := pooled_eq_apart all.detectors tree paths order complete
    refine ⟨slots.trans (by rw [inTurn_eq_apart]), ?_⟩
    simp only [auditFiles, reports_eq_apart, slots, List.filterMap_map, Function.id_comp,
      List.filterMap_some]
  · intro jobs
    simp only [auditFiles, reports_eq_apart]
  · intro jobs issue reported
    simp only [auditFiles, reports_eq_apart] at reported
    exact mem_mergeAll_apart all.detectors tree reported

/-- Three files of the sample tree, the second of which is missing, are done from the
last to the first: the reports are as in their turn, and the issue of the first file that
is left is its own. -/
theorem auditFiles_jobs_agree_sample :
    let paths : List OsText := [Text.bytes "a.php", Text.bytes "b.php", Text.bytes "./a.php"]
    let all : Settings := {}
    let issue : Issue :=
      ⟨"a.php", ⟨3, .missingTimeout, .curl, "curl_exec", .high, Library.curl.message,
        Library.curl.suggestion⟩⟩
    pooled all.detectors sampleTree paths [2, 1, 0] =
        (inTurn sampleTree all.detectors.detectors paths).map some ∧
      (auditFiles all 4 sampleTree paths).result = (auditFiles all 1 sampleTree paths).result ∧
      ∃ path ∈ paths, issue.file = decodeLossy path ∧
        ∃ file, parseFile sampleTree path = .ok file ∧
          issue ∈ expectedIssues all.detectors (decodeLossy path) file.tree := by
  intro paths all issue
  obtain ⟨-, pool, jobs, own⟩ := auditFiles_jobs_agree sampleTree all paths
  have complete : ∀ position < paths.length, position ∈ [2, 1, 0] := by decide
  have reported : issue ∈ (auditFiles all 4 sampleTree paths).result.issues := by decide +kernel
  exact ⟨(pool [2, 1, 0] complete).1, jobs 4, own 4 issue (.inl reported)⟩

end Audit

end TimeoutAudit
