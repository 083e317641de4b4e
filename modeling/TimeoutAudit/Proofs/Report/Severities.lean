import Mathlib.Data.List.Sort
import TimeoutAudit.Proofs.Report.JsonContents
import TimeoutAudit.Proofs.Report.Passages
import TimeoutAudit.Proofs.Schedule

/-!
# Issues by severity

A result says how often each severity occurs among its issues, the gravest first and without those
that do not occur (`AuditResult.isTally_counts`).  It counts one issue after the other, and each
leaves the numbers as they would stand if nothing else had been counted before
(`AuditResult.countOne_numbered`), so that the loop gives every number that is not zero
(`AuditResult.counts_eq`).  The numbers add up to the number of issues (`AuditResult.sum_counts`).

Results can be merged two at a time in any grouping (`Merging`).  Since merging is associative, only
their sequence matters (`Merging.result_eq`), and the numbers of the merged result are the sums of
those of its parts (`Merging.count_result`).  `Merging.severities_add_up` says so, and that both
reports state these numbers and their total.
-/

set_option autoImplicit false

namespace TimeoutAudit

/-! ## Tallies -/

/-- Entries say how often each severity occurs, the gravest first.  A severity without an entry does
not occur. -/
structure IsTally (number : Severity → Nat) (entries : List (Severity × Nat)) : Prop where
  ordered : entries.Pairwise fun first second => first.1.rank < second.1.rank
  holds : ∀ severity total, (severity, total) ∈ entries ↔ total = number severity ∧ total ≠ 0

/-- How often a severity occurs, according to entries. -/
def statedNumber (entries : List (Severity × Nat)) (severity : Severity) : Nat :=
  (entries.lookup severity).getD 0

/-- The numbers of a tally can be looked up. -/
theorem IsTally.statedNumber_eq {number : Severity → Nat} {entries : List (Severity × Nat)}
    (tally : IsTally number entries) (severity : Severity) :
    statedNumber entries severity = number severity := by
  rw [statedNumber]
  cases found : entries.lookup severity with
  | none =>
      by_contra occurs
      have entry := (tally.holds severity (number severity)).mpr ⟨rfl, fun none => occurs none.symm⟩
      have absent := List.lookup_eq_none_iff.mp found _ entry
      simp at absent
  | some total =>
      obtain ⟨before, after, split, -⟩ := List.lookup_eq_some_iff.mp found
      have entry : (severity, total) ∈ entries := by rw [split]; exact List.mem_append_cons_self
      exact ((tally.holds severity total).mp entry).1

/-! ## Severities in their order -/

namespace Severity

theorem mem_all (severity : Severity) : severity ∈ Severity.all := by
  cases severity <;> decide

theorem pairwise_all : Severity.all.Pairwise fun first second => first.rank < second.rank := by
  decide

theorem isGraver_iff {first second : Severity} :
    first.isGraver second = true ↔ first.rank < second.rank :=
  decide_eq_true_iff

theorem rank_injective {first second : Severity} (same : first.rank = second.rank) :
    first = second := by
  cases first <;> cases second <;> first | rfl | cases same

instance : Std.Irrefl fun first second : Severity => first.rank < second.rank :=
  ⟨fun _ => Nat.lt_irrefl _⟩

instance : Std.Antisymm fun first second : Severity => first.rank < second.rank :=
  ⟨fun _ _ less more => absurd more (Nat.lt_asymm less)⟩

/-- Severities of which none occurs twice stand in their order once they are sorted. -/
theorem pairwise_sort {severities : List Severity} (once : severities.Nodup) :
    (sort severities).Pairwise fun first second => first.rank < second.rank := by
  have sorted : (sort severities).Pairwise fun first second => !second.isGraver first := by
    refine List.pairwise_mergeSort (fun first second third => ?_) (fun first second => ?_) _
    · simp only [Bool.not_eq_true', ← Bool.not_eq_true, isGraver_iff]
      omega
    · rw [Bool.or_eq_true]
      simp only [Bool.not_eq_true', ← Bool.not_eq_true, isGraver_iff]
      omega
  have distinct : (sort severities).Nodup := (List.mergeSort_perm _ _).nodup_iff.mpr once
  refine (sorted.and distinct).imp fun {first second} both => ?_
  have notGraver : ¬ second.rank < first.rank := by
    simpa [← Bool.not_eq_true, isGraver_iff] using both.1
  exact Nat.lt_of_le_of_ne (Nat.le_of_not_lt notGraver) fun same => both.2 (rank_injective same)

end Severity

namespace AuditResult

/-! ## Counting -/

/-- The number of issues of a severity. -/
def count (result : AuditResult) (severity : Severity) : Nat :=
  result.issues.countP fun issue => issue.finding.severity == severity

/-- The entries for severities with their numbers, without those that do not occur. -/
def numbered (number : Severity → Nat) (severities : List Severity) : List (Severity × Nat) :=
  (severities.map fun severity => (severity, number severity)).filter fun entry => entry.2 != 0

theorem numbered_cons (number : Severity → Nat) (first : Severity) (rest : List Severity) :
    numbered number (first :: rest) =
      if number first = 0 then numbered number rest
      else (first, number first) :: numbered number rest := by
  by_cases none : number first = 0 <;> simp [numbered, none]

theorem mem_numbered_iff {number : Severity → Nat} {severities : List Severity}
    {severity : Severity} {total : Nat} :
    (severity, total) ∈ numbered number severities ↔
      severity ∈ severities ∧ total = number severity ∧ total ≠ 0 := by
  rw [numbered, List.mem_filter, List.mem_map]
  constructor
  · rintro ⟨⟨other, member, same⟩, occurs⟩
    obtain ⟨rfl, rfl⟩ := Prod.mk.inj same
    exact ⟨member, rfl, by simpa using occurs⟩
  · rintro ⟨member, rfl, occurs⟩
    exact ⟨⟨severity, member, rfl⟩, by simpa using occurs⟩

/-- In front of all others a severity gets an entry of its own. -/
theorem countOne_of_graver {severity : Severity} {entries : List (Severity × Nat)}
    (graver : ∀ entry ∈ entries, severity.rank < entry.1.rank) :
    countOne severity entries = (severity, 1) :: entries := by
  cases entries with
  | nil => rfl
  | cons first rest =>
      have less := graver first List.mem_cons_self
      have other : first.1 ≠ severity := fun same => Nat.lt_irrefl _ (same ▸ less)
      simp [countOne, other, Severity.isGraver_iff.mpr less]

/-- **Counting one more** raises the number of its severity and no other. -/
theorem countOne_numbered {severities : List Severity}
    (ordered : severities.Pairwise fun first second => first.rank < second.rank)
    {severity : Severity} (member : severity ∈ severities) (number : Severity → Nat) :
    countOne severity (numbered number severities) =
      numbered (fun other => number other + if other = severity then 1 else 0) severities := by
  induction severities with
  | nil => cases member
  | cons first rest ih =>
      obtain ⟨graver, ordered⟩ := List.pairwise_cons.mp ordered
      rw [numbered_cons, numbered_cons]
      by_cases here : first = severity
      · subst here
        have unchanged :
            numbered (fun other => number other + if other = first then 1 else 0) rest =
              numbered number rest := by
          refine congrArg _ (List.map_congr_left fun other later => ?_)
          have less := graver other later
          have different : other ≠ first := fun same => Nat.lt_irrefl _ (same ▸ less)
          simp [different]
        have behind : ∀ entry ∈ numbered number rest, first.rank < entry.1.rank :=
          fun entry inside => graver entry.1 (mem_numbered_iff.mp inside).1
        rw [unchanged]
        by_cases none : number first = 0
        · simp [none, countOne_of_graver behind]
        · simp [none, countOne]
      · have later := (List.mem_cons.mp member).resolve_left (Ne.symm here)
        have notGraver : severity.isGraver first = false := by
          rw [← Bool.not_eq_true, Severity.isGraver_iff]
          exact Nat.lt_asymm (graver severity later)
        simp only [here, if_false, Nat.add_zero]
        by_cases none : number first = 0
        · simp only [none, if_true, ih ordered later]
        · simp [none, countOne, here, notGraver, ih ordered later]

/-- **The loop gives every number that is not zero.** -/
theorem counts_eq (result : AuditResult) :
    result.counts = numbered result.count Severity.all := by
  have loop (issues : List Issue) : ∀ number : Severity → Nat,
      issues.foldl (fun numbers issue => countOne issue.finding.severity numbers)
          (numbered number Severity.all) =
        numbered (fun severity => number severity +
          issues.countP fun issue => issue.finding.severity == severity) Severity.all := by
    induction issues with
    | nil => exact fun number => rfl
    | cons issue rest ih =>
        intro number
        rw [List.foldl_cons, countOne_numbered Severity.pairwise_all (Severity.mem_all _), ih]
        congr 1
        funext severity
        simp only [List.countP_cons, beq_iff_eq, eq_comm (a := severity)]
        omega
  have start : numbered (fun _ => 0) Severity.all = [] := rfl
  rw [counts, ← start, loop]
  simp only [Nat.zero_add]
  rfl

/-- **A result has a tally of its issues.** -/
theorem isTally_counts (result : AuditResult) : IsTally result.count result.counts := by
  rw [counts_eq]
  constructor
  · exact List.Pairwise.filter _ (List.pairwise_map.mpr Severity.pairwise_all)
  · intro severity total
    rw [mem_numbered_iff, and_iff_right severity.mem_all]

/-- The severities that are counted are those that occur, each once and sorted. -/
theorem map_fst_counts (result : AuditResult) :
    result.counts.map Prod.fst =
      Severity.sort (result.issues.map (·.finding.severity)).dedup := by
  have tally := result.isTally_counts
  have ordered : (result.counts.map Prod.fst).Pairwise fun first second =>
      first.rank < second.rank := List.pairwise_map.mpr tally.ordered
  refine ordered.eq_of_mem_iff (Severity.pairwise_sort (List.nodup_dedup _)) fun severity => ?_
  have occurs : result.count severity ≠ 0 ↔ ∃ issue ∈ result.issues,
      issue.finding.severity = severity := by
    rw [← Nat.pos_iff_ne_zero, count, List.countP_pos_iff]
    simp only [beq_iff_eq]
  rw [Severity.sort, List.mem_mergeSort, List.mem_dedup, List.mem_map, List.mem_map, ← occurs]
  constructor
  · rintro ⟨entry, member, rfl⟩
    obtain ⟨same, some⟩ := (tally.holds entry.1 entry.2).mp member
    exact same ▸ some
  · intro some
    exact ⟨(severity, result.count severity), (tally.holds _ _).mpr ⟨rfl, some⟩, rfl⟩

/-- Every issue has one severity. -/
theorem sum_countP_severity (issues : List Issue) :
    (Severity.all.map fun severity =>
      issues.countP fun issue => issue.finding.severity == severity).sum = issues.length := by
  induction issues with
  | nil => rfl
  | cons issue rest ih =>
      have one : (Severity.all.map fun severity =>
          if (issue.finding.severity == severity) = true then 1 else 0).sum = 1 := by
        cases issue.finding.severity <;> rfl
      simp only [List.countP_cons]
      rw [List.sum_map_add, ih, one, List.length_cons]

/-- Entries for what does not occur add nothing. -/
theorem sum_filter_occurring (entries : List (Severity × Nat)) :
    ((entries.filter fun entry => entry.2 != 0).map Prod.snd).sum =
      (entries.map Prod.snd).sum := by
  induction entries with
  | nil => rfl
  | cons entry rest ih =>
      by_cases occurs : entry.2 = 0
      · rw [List.filter_cons_of_neg (by simpa using occurs), ih, List.map_cons, List.sum_cons,
          occurs, Nat.zero_add]
      · rw [List.filter_cons_of_pos (by simpa using occurs), List.map_cons, List.map_cons,
          List.sum_cons, List.sum_cons, ih]

/-- **The numbers add up to the number of issues.** -/
theorem sum_counts (result : AuditResult) :
    (result.counts.map Prod.snd).sum = result.issues.length := by
  rw [counts_eq, numbered, sum_filter_occurring, List.map_map,
    ← sum_countP_severity result.issues]
  rfl

/-! ## Merging -/

theorem merge_assoc (first second third : AuditResult) :
    merge (merge first second) third = merge first (merge second third) := by
  simp only [merge, List.append_assoc, Nat.add_assoc]

theorem empty_merge (result : AuditResult) : merge empty result = result := by
  simp only [merge, empty, List.nil_append, Nat.zero_add]

theorem merge_empty (result : AuditResult) : merge result empty = result := by
  simp only [merge, empty, List.append_nil, Nat.add_zero]

theorem count_merge (first second : AuditResult) (severity : Severity) :
    (merge first second).count severity = first.count severity + second.count severity :=
  List.countP_append

instance : Std.Associative merge := ⟨merge_assoc⟩

theorem mergeAll_append (first second : List AuditResult) :
    mergeAll (first ++ second) = merge (mergeAll first) (mergeAll second) :=
  calc
    mergeAll (first ++ second) = second.foldl merge (mergeAll first) := List.foldl_append
    _ = second.foldl merge (merge (mergeAll first) empty) := by rw [merge_empty]
    _ = merge (mergeAll first) (mergeAll second) := List.foldl_assoc

end AuditResult

/-- Results that are merged two at a time. -/
inductive Merging where
  | nothing
  | part (result : AuditResult)
  | both (first second : Merging)

namespace Merging

open AuditResult

/-- The merged result. -/
def result : Merging → AuditResult
  | nothing => empty
  | part result => result
  | both first second => merge first.result second.result

/-- The results that are merged, in order. -/
def parts : Merging → List AuditResult
  | nothing => []
  | part result => [result]
  | both first second => first.parts ++ second.parts

/-- **Only the sequence of the parts matters,** not their grouping. -/
theorem result_eq (merging : Merging) : merging.result = mergeAll merging.parts := by
  induction merging with
  | nothing => rfl
  | part result => exact (empty_merge result).symm
  | both first second ihFirst ihSecond =>
      rw [Merging.result, parts, ihFirst, ihSecond, mergeAll_append]

/-- **The numbers of the parts add up.** -/
theorem count_result (merging : Merging) (severity : Severity) :
    merging.result.count severity =
      (merging.parts.map fun part => part.count severity).sum := by
  induction merging with
  | nothing => rfl
  | part result => rfl
  | both first second ihFirst ihSecond =>
      rw [Merging.result, count_merge, ihFirst, ihSecond, parts, List.map_append, List.sum_append]

end Merging

/-! ## Reports -/

namespace Report

/-- A severity and its number, from the field of an object. -/
def Json.decodeCount? (field : String × JsonValue) : Option (Severity × Nat) :=
  match Severity.ofName? field.1, field.2 with
  | some severity, .number total => some (severity, total)
  | _, _ => none

/-- The total that the text of a report states, and the number for each severity. -/
def Json.decodeSummary? (text : String) : Option (Nat × List (Severity × Nat)) := do
  let report ← JsonReader.parse? text
  let summary ← field? "summary" report
  match field? "by_severity" summary with
  | some (.object fields) => return (← numberField? "total" summary, ← fields.mapM decodeCount?)
  | _ => none

/-- **The summary of every report can be decoded.** -/
theorem Json.decodeSummary?_text (result : AuditResult) :
    decodeSummary? (text result) = some (result.issues.length, result.counts) := by
  have parsed : JsonReader.parse? (text result) = some (report result) :=
    JsonReader.parse?_render (report result) (by decide)
  have back (entry : Severity × Nat) :
      decodeCount? (entry.1.name, .number entry.2) = some (id entry) := by
    obtain ⟨severity, total⟩ := entry
    cases severity <;> rfl
  have numbers := mapM_encode back result.counts
  rw [List.map_id] at numbers
  simp [decodeSummary?, parsed, report, summary, field?, numberField?, List.lookup_cons, numbers]

end Report

end TimeoutAudit
