import Mathlib.Data.List.Perm.Basic
import TimeoutAudit.Suppression.Basic

/-!
# Dividing issues by suppressions

`Suppression.split` goes through the issues once.  Both of its lists keep the order
of the issues: the first holds those that nothing covers, the second the others,
each with the first suppression that covers it (`split_eq`).

What this means for lists of issues and of suppressions is collected in `split_laws`: no issue is
lost or doubled, issues are divided one by one, the order of the suppressions matters only for
which of them an issue is shown with, and more suppressions silence more issues.
-/

set_option autoImplicit false

namespace TimeoutAudit

/-- A type has one name. -/
theorem IssueType.ofName?_eq_some_iff {text : String} {type : IssueType} :
    IssueType.ofName? text = some type ↔ text = type.name := by
  cases type
  simp [ofName?]

namespace Suppression

/-- Whether some suppression covers an issue. -/
def silences (suppressions : List Suppression) (issue : Issue) : Bool :=
  suppressions.any (·.covers issue)

/-- An issue with the first suppression that covers it. -/
def attributed? (suppressions : List Suppression) (issue : Issue) : Option SuppressedIssue :=
  (suppressions.find? (·.covers issue)).map (SuppressedIssue.mk issue)

theorem silences_eq_isSome_find? (suppressions : List Suppression) (issue : Issue) :
    silences suppressions issue = (suppressions.find? (·.covers issue)).isSome := by
  rw [silences, Bool.eq_iff_iff, List.find?_isSome, List.any_eq_true]

/-- **Splitting is a stable partition that remembers the first match.** -/
theorem split_eq (suppressions : List Suppression) (issues : List Issue) :
    split suppressions issues =
      (issues.filter fun issue => !silences suppressions issue,
        issues.filterMap (attributed? suppressions)) := by
  induction issues with
  | nil => rfl
  | cons issue others ih =>
      rw [split, ih]
      cases found : suppressions.find? (·.covers issue) with
      | none => simp [attributed?, silences_eq_isSome_find?, found]
      | some suppression => simp [attributed?, silences_eq_isSome_find?, found]

/-! ## Matching -/

/-- A suppression matches an issue of its file whose type it names, or any type, and whose line it
reaches. -/
structure Matches (suppression : Suppression) (issue : Issue) : Prop where
  file : issue.file = suppression.file
  rule : suppression.rule = "*" ∨ suppression.rule = issue.finding.type.name
  reach : suppression.scope = .file ∨
    suppression.scope = .line ∧ issue.finding.line = suppression.line ∨
    suppression.scope = .nextLine ∧ issue.finding.line = suppression.line + 1

/-- The first of several suppressions that match an issue. -/
def IsFirstMatch (suppressions : List Suppression) (issue : Issue) (suppression : Suppression) :
    Prop :=
  ∃ earlier later, suppressions = earlier ++ suppression :: later ∧ suppression.Matches issue ∧
    ∀ other ∈ earlier, ¬ other.Matches issue

variable {suppressions : List Suppression} {suppression : Suppression} {issues : List Issue}
  {issue : Issue}

theorem covers_iff : suppression.covers issue = true ↔ suppression.Matches issue := by
  rw [covers, Bool.and_eq_true, Bool.and_eq_true, Bool.or_eq_true, beq_iff_eq, beq_iff_eq,
    beq_iff_eq, IssueType.ofName?_eq_some_iff]
  constructor
  · rintro ⟨⟨file, rule⟩, reach⟩
    refine ⟨file, rule, ?_⟩
    cases scope : suppression.scope <;> simp_all
  · rintro ⟨file, rule, reach⟩
    refine ⟨⟨file, rule⟩, ?_⟩
    cases scope : suppression.scope <;> simp_all

theorem silences_iff : silences suppressions issue = true ↔
    ∃ suppression ∈ suppressions, suppression.Matches issue := by
  simp only [silences, List.any_eq_true, covers_iff]

theorem find?_eq_some_iff : suppressions.find? (·.covers issue) = some suppression ↔
    IsFirstMatch suppressions issue suppression := by
  simp only [List.find?_eq_some_iff_append, Bool.not_eq_true', ← Bool.not_eq_true, covers_iff]
  constructor
  · rintro ⟨isMatch, earlier, later, split, others⟩
    exact ⟨earlier, later, split, isMatch, others⟩
  · rintro ⟨earlier, later, split, isMatch, others⟩
    exact ⟨isMatch, earlier, later, split, others⟩

/-! ## What becomes of the issues -/

theorem attributed?_eq_some_iff {entry : SuppressedIssue} :
    attributed? suppressions issue = some entry ↔
      entry.issue = issue ∧ IsFirstMatch suppressions issue entry.suppression := by
  rw [attributed?, Option.map_eq_some_iff]
  simp only [find?_eq_some_iff]
  constructor
  · rintro ⟨suppression, first, rfl⟩
    exact ⟨rfl, first⟩
  · rintro ⟨rfl, first⟩
    exact ⟨entry.suppression, first, rfl⟩

/-- The issues that are attributed to a suppression are those that are silenced. -/
theorem map_issue_attributed (suppressions : List Suppression) (issues : List Issue) :
    (issues.filterMap (attributed? suppressions)).map SuppressedIssue.issue =
      issues.filter (silences suppressions) := by
  rw [List.map_filterMap, ← List.filterMap_eq_filter]
  refine List.filterMap_congr fun issue _ => ?_
  rw [attributed?, Option.guard, silences_eq_isSome_find?]
  cases suppressions.find? (·.covers issue) with
  | none => rfl
  | some suppression => rfl

/-- **Nothing is lost or doubled.** -/
theorem split_perm (suppressions : List Suppression) (issues : List Issue) :
    ((issues.filter fun issue => !silences suppressions issue) ++
      (issues.filterMap (attributed? suppressions)).map SuppressedIssue.issue).Perm issues := by
  rw [map_issue_attributed]
  exact List.perm_append_comm.trans (List.filter_append_perm _ _)

theorem mem_active_iff : issue ∈ (split suppressions issues).1 ↔
    issue ∈ issues ∧ ∀ suppression ∈ suppressions, ¬ suppression.Matches issue := by
  rw [split_eq, List.mem_filter, Bool.not_eq_true', ← Bool.not_eq_true, silences_iff]
  simp only [not_exists, not_and]

theorem isFirstMatch_of_mem {entry : SuppressedIssue}
    (member : entry ∈ (split suppressions issues).2) :
    IsFirstMatch suppressions entry.issue entry.suppression := by
  rw [split_eq, List.mem_filterMap] at member
  obtain ⟨issue, -, attributed⟩ := member
  obtain ⟨rfl, first⟩ := attributed?_eq_some_iff.mp attributed
  exact first

/-- Issues that stayed stay. -/
theorem split_active (suppressions : List Suppression) (issues : List Issue) :
    split suppressions (split suppressions issues).1 = ((split suppressions issues).1, []) := by
  have stays : ∀ issue ∈ (split suppressions issues).1, silences suppressions issue = false := by
    intro issue member
    rw [split_eq, List.mem_filter] at member
    simpa using member.2
  rw [split_eq suppressions (split suppressions issues).1, Prod.mk.injEq]
  constructor
  · exact List.filter_eq_self.mpr fun issue member => by rw [stays issue member]; rfl
  · refine List.filterMap_eq_nil_iff.mpr fun issue member => ?_
    have nothing := stays issue member
    rw [silences_eq_isSome_find?, Option.isSome_eq_false_iff, Option.isNone_iff_eq_none] at nothing
    rw [attributed?, nothing, Option.map_none]

/-- Issues are divided one by one. -/
theorem split_append (suppressions : List Suppression) (first second : List Issue) :
    split suppressions (first ++ second) =
      ((split suppressions first).1 ++ (split suppressions second).1,
        (split suppressions first).2 ++ (split suppressions second).2) := by
  simp only [split_eq, List.filter_append, List.filterMap_append]

/-! ## Other suppressions -/

theorem silences_perm {others : List Suppression} (same : suppressions.Perm others) :
    silences others issue = silences suppressions issue := by
  rw [Bool.eq_iff_iff, silences_iff, silences_iff]
  simp only [same.mem_iff]

theorem silences_append (suppressions more : List Suppression) (issue : Issue) :
    silences (suppressions ++ more) issue =
      (silences suppressions issue || silences more issue) :=
  List.any_append

/-- What more suppressions leave active was active before. -/
theorem active_append_sublist (suppressions more : List Suppression) (issues : List Issue) :
    (split (suppressions ++ more) issues).1.Sublist (split suppressions issues).1 := by
  rw [split_eq, split_eq]
  refine List.monotone_filter_right issues fun issue active => ?_
  rw [silences_append, Bool.not_or, Bool.and_eq_true] at active
  exact active.1

/-- Issues that were silenced are silenced as before. -/
theorem silenced_append (suppressions more : List Suppression) (issues : List Issue) :
    (split (suppressions ++ more) issues).2.filter
        (fun entry => silences suppressions entry.issue) = (split suppressions issues).2 := by
  rw [split_eq, split_eq, List.filter_filterMap]
  refine List.filterMap_congr fun issue _ => ?_
  rw [attributed?, attributed?, List.find?_append]
  cases found : suppressions.find? (·.covers issue) with
  | none =>
      have active : silences suppressions issue = false := by
        rw [silences_eq_isSome_find?, found, Option.isSome_none]
      rw [Option.none_or]
      cases more.find? (·.covers issue) with
      | none => rfl
      | some suppression => simp [active]
  | some suppression =>
      have silenced : silences suppressions issue = true := by
        rw [silences_eq_isSome_find?, found, Option.isSome_some]
      simp [silenced]

/-- **The laws of splitting.**  The issues that stay and those that are silenced are sublists, and
every issue is in one of them, once.  The issues that stay are those that no suppression matches,
so that nothing more is silenced among them, and a silenced issue comes with the first suppression
that matches it.  Parts of the issues can be split apart.  The order of the suppressions makes no
difference to the issues that stay, and more suppressions behind the others only silence more
issues: those that were silenced before come with the same suppression. -/
theorem split_laws (suppressions : List Suppression) (issues : List Issue) :
    let active := (split suppressions issues).1
    let silenced := (split suppressions issues).2
    active.Sublist issues ∧ (silenced.map SuppressedIssue.issue).Sublist issues ∧
    (active ++ silenced.map SuppressedIssue.issue).Perm issues ∧
    (∀ issue, issue ∈ active ↔
      issue ∈ issues ∧ ∀ suppression ∈ suppressions, ¬ suppression.Matches issue) ∧
    (∀ entry ∈ silenced, IsFirstMatch suppressions entry.issue entry.suppression) ∧
    split suppressions active = (active, []) ∧
    (∀ first second, issues = first ++ second →
      active = (split suppressions first).1 ++ (split suppressions second).1 ∧
      silenced = (split suppressions first).2 ++ (split suppressions second).2) ∧
    (∀ others, suppressions.Perm others → (split others issues).1 = active) ∧
    ∀ more, (split (suppressions ++ more) issues).1.Sublist active ∧
      (split (suppressions ++ more) issues).2.filter
        (fun entry => silences suppressions entry.issue) = silenced := by
  intro active silenced
  have stays : active = issues.filter fun issue => !silences suppressions issue :=
    congrArg Prod.fst (split_eq suppressions issues)
  have falls : silenced = issues.filterMap (attributed? suppressions) :=
    congrArg Prod.snd (split_eq suppressions issues)
  refine ⟨?_, ?_, ?_, fun issue => mem_active_iff, fun entry => isFirstMatch_of_mem,
    split_active suppressions issues, ?_, ?_, fun more =>
      ⟨active_append_sublist suppressions more issues, silenced_append suppressions more issues⟩⟩
  · rw [stays]
    exact List.filter_sublist
  · rw [falls, map_issue_attributed]
    exact List.filter_sublist
  · rw [stays, falls]
    exact split_perm suppressions issues
  · rintro first second rfl
    exact Prod.mk.inj (split_append suppressions first second)
  · intro others same
    simp only [stays, split_eq, silences_perm same]

/-- Two suppressions that reach the same line, in different ways. -/
def overlapping : List Suppression :=
  [⟨"missing_timeout", "upstream limit", "a.php", 3, .line⟩, ⟨"*", "legacy", "a.php", 2, .nextLine⟩]

/-- Issues on the given lines of a file. -/
def issuesOn (lines : List Nat) : List Issue :=
  lines.map fun line => ⟨"a.php", ⟨line, .missingTimeout, .curl, "curl_exec", .high, "", ""⟩⟩

/-- Of three issues the middle one is silenced, by the first of two suppressions that reach it; the
others stay, in either order of the suppressions. -/
theorem split_laws_overlapping :
    (split overlapping.reverse (issuesOn [2, 3, 9])).1 = issuesOn [2, 9] ∧
    (split overlapping (issuesOn [2, 3, 9])).2.map (·.suppression.reason) = ["upstream limit"] ∧
    (∃ entry ∈ (split overlapping (issuesOn [2, 3, 9])).2, entry.issue.finding.line = 3 ∧
      IsFirstMatch overlapping entry.issue entry.suppression) ∧
    (split overlapping (issuesOn [2, 3, 9])).1 =
      (split overlapping (issuesOn [2])).1 ++ (split overlapping (issuesOn [3, 9])).1 := by
  obtain ⟨-, -, -, -, first, -, apart, permuted, -⟩ := split_laws overlapping (issuesOn [2, 3, 9])
  have reason : (split overlapping (issuesOn [2, 3, 9])).2.map (·.suppression.reason) =
      ["upstream limit"] := by decide +kernel
  have reached : ∃ entry ∈ (split overlapping (issuesOn [2, 3, 9])).2,
      entry.issue.finding.line = 3 := by decide +kernel
  obtain ⟨entry, member, line⟩ := reached
  refine ⟨?_, reason, ⟨entry, member, line, first entry member⟩, (apart _ _ rfl).1⟩
  rw [permuted _ (List.reverse_perm overlapping).symm]
  decide +kernel

end Suppression

end TimeoutAudit
