import Mathlib.Data.List.Induction
import Mathlib.Data.List.Nodup
import TimeoutAudit.Report.Pretty

/-!
# Issues under their files

Issues are added to groups one after another: to the group of their file, or to a new one at the
end.  `Report.Pretty.IsGrouping` says what comes of it without saying how: every file has one group,
which holds its issues and no others, in their order, and the groups are in the order in which the
files first occur.

Both lemmas about one added issue, for a new file and for one that has its group, lead to
`Report.Pretty.isGrouping_groupByFile` by induction over the issues.
-/

set_option autoImplicit false

namespace TimeoutAudit.Report.Pretty

/-! ## Groups -/

/-- Groups hold the issues of every file that has any, in the order in which the files occur. -/
structure IsGrouping (issues : List Issue) (groups : List Group) : Prop where
  distinct : (groups.map Group.file).Nodup
  files : ∀ file, file ∈ groups.map Group.file ↔ file ∈ issues.map Issue.file
  ordered : (groups.map Group.file).Pairwise fun first second =>
    (issues.map Issue.file).idxOf first < (issues.map Issue.file).idxOf second
  whole : ∀ group ∈ groups, group.issues = issues.filter fun issue => issue.file == group.file

/-- An issue comes to the group of its file, and only where there is none to a group of its own. -/
theorem addToGroups_cases (issue : Issue) (groups : List Group) :
    (issue.file ∉ groups.map Group.file ∧
      addToGroups issue groups = groups ++ [⟨issue.file, [issue]⟩]) ∨
    ∃ before group after, groups = before ++ group :: after ∧ group.file = issue.file ∧
      addToGroups issue groups = before ++ ⟨group.file, group.issues ++ [issue]⟩ :: after := by
  induction groups with
  | nil => exact .inl ⟨List.not_mem_nil, rfl⟩
  | cons first rest ih =>
      by_cases here : first.file = issue.file
      · refine .inr ⟨[], first, rest, rfl, here, ?_⟩
        rw [addToGroups, if_pos (beq_iff_eq.mpr here)]
        rfl
      · have later : addToGroups issue (first :: rest) = first :: addToGroups issue rest := by
          rw [addToGroups, if_neg (by simpa using here)]
        rw [later]
        rcases ih with ⟨new, added⟩ | ⟨before, group, after, rfl, same, added⟩
        · refine .inl ⟨?_, by rw [added]; rfl⟩
          rw [List.map_cons, List.mem_cons]
          rintro (again | again)
          · exact here again.symm
          · exact new again
        · exact .inr ⟨first :: before, group, after, rfl, same, by rw [added]; rfl⟩

namespace IsGrouping

variable {issues : List Issue} {groups : List Group}

theorem nil : IsGrouping [] [] where
  distinct := List.nodup_nil
  files _ := Iff.rfl
  ordered := List.Pairwise.nil
  whole _ member := absurd member List.not_mem_nil

/-- Where a file occurs first does not change when issues are added. -/
theorem ordered_concat (grouping : IsGrouping issues groups) (issue : Issue) :
    (groups.map Group.file).Pairwise fun first second =>
      ((issues ++ [issue]).map Issue.file).idxOf first <
        ((issues ++ [issue]).map Issue.file).idxOf second := by
  refine grouping.ordered.imp_of_mem fun {first second} firstMember secondMember before => ?_
  rw [List.map_append, List.idxOf_append_of_mem ((grouping.files first).mp firstMember),
    List.idxOf_append_of_mem ((grouping.files second).mp secondMember)]
  exact before

/-- Files that come one after another are different. -/
theorem distinct_of_ordered {files occurrences : List String}
    (ordered : files.Pairwise fun first second =>
      occurrences.idxOf first < occurrences.idxOf second) : files.Nodup := by
  refine ordered.imp fun {first second} before same => ?_
  rw [same] at before
  exact Nat.lt_irrefl _ before

theorem concat_new (grouping : IsGrouping issues groups) {issue : Issue}
    (new : issue.file ∉ groups.map Group.file) :
    IsGrouping (issues ++ [issue]) (groups ++ [⟨issue.file, [issue]⟩]) := by
  have absent : issue.file ∉ issues.map Issue.file := fun member =>
    new ((grouping.files _).mpr member)
  have ordered : (groups.map Group.file ++ [issue.file]).Pairwise
      fun first second => ((issues ++ [issue]).map Issue.file).idxOf first <
        ((issues ++ [issue]).map Issue.file).idxOf second := by
    refine List.pairwise_append.mpr
      ⟨grouping.ordered_concat issue, List.pairwise_singleton _ _, ?_⟩
    intro file member last isLast
    have known := (grouping.files file).mp member
    rw [List.mem_singleton.mp isLast, List.map_append, List.idxOf_append_of_mem known,
      List.idxOf_append_of_notMem absent]
    exact Nat.lt_add_right _ (List.idxOf_lt_length_iff.mpr known)
  refine ⟨?_, fun file => ?_, ?_, fun group member => ?_⟩
  · simpa using distinct_of_ordered ordered
  · simp only [List.map_append, List.mem_append, grouping.files file, List.map_singleton]
  · simpa using ordered
  · rcases List.mem_append.mp member with old | isNew
    · have other : issue.file ≠ group.file := fun same =>
        new (List.mem_map.mpr ⟨group, old, same.symm⟩)
      rw [grouping.whole group old]
      simp [other]
    · obtain rfl := List.mem_singleton.mp isNew
      have none : issues.filter (fun other => other.file == issue.file) = [] := by
        refine List.filter_eq_nil_iff.mpr fun other member same => ?_
        exact absent (List.mem_map.mpr ⟨other, member, beq_iff_eq.mp same⟩)
      simp [none]

theorem concat_old {before after : List Group} {group : Group}
    (grouping : IsGrouping issues (before ++ group :: after)) {issue : Issue}
    (same : group.file = issue.file) :
    IsGrouping (issues ++ [issue]) (before ++ ⟨group.file, group.issues ++ [issue]⟩ :: after) := by
  have unchanged : (before ++ Group.mk group.file (group.issues ++ [issue]) :: after).map
      Group.file = (before ++ group :: after).map Group.file := by
    simp
  constructor
  · rw [unchanged]
    exact grouping.distinct
  · intro file
    rw [unchanged, grouping.files, List.map_append, List.mem_append]
    refine ⟨.inl, fun known => known.elim id fun isNew => ?_⟩
    rw [List.mem_singleton.mp isNew, ← grouping.files]
    simp [same]
  · rw [unchanged]
    exact grouping.ordered_concat issue
  · intro other member
    have distinct : group.file ∉ (before ++ after).map Group.file := by
      have once := grouping.distinct
      rw [List.map_append, List.map_cons, List.nodup_middle, ← List.map_append] at once
      exact (List.nodup_cons.mp once).1
    rw [List.filter_append]
    rcases List.mem_cons.mp (List.perm_middle.mem_iff.mp member) with rfl | elsewhere
    · rw [grouping.whole group List.mem_append_cons_self]
      simp [same]
    · have unlike : issue.file ≠ other.file := fun here =>
        distinct (List.mem_map.mpr ⟨other, elsewhere, (same.trans here).symm⟩)
      rw [grouping.whole other (List.perm_middle.mem_iff.mpr (List.mem_cons_of_mem _ elsewhere))]
      simp [unlike]

end IsGrouping

theorem groupByFile_concat (issues : List Issue) (issue : Issue) :
    groupByFile (issues ++ [issue]) = addToGroups issue (groupByFile issues) := by
  rw [groupByFile, List.foldl_append]
  rfl

/-- **The issues are grouped by file.** -/
theorem isGrouping_groupByFile (issues : List Issue) : IsGrouping issues (groupByFile issues) := by
  induction issues using List.reverseRecOn with
  | nil => exact .nil
  | append_singleton issues issue ih =>
      rw [groupByFile_concat]
      rcases addToGroups_cases issue (groupByFile issues) with
        ⟨new, added⟩ | ⟨before, group, after, found, same, added⟩
      · rw [added]
        exact ih.concat_new new
      · rw [added]
        rw [found] at ih
        exact ih.concat_old same

/-- The groups hold every issue as often as it was found. -/
theorem flatMap_groupByFile_perm (issues : List Issue) :
    ((groupByFile issues).flatMap Group.issues).Perm issues := by
  induction issues using List.reverseRecOn with
  | nil => exact .nil
  | append_singleton issues issue ih =>
      rw [groupByFile_concat]
      refine List.Perm.trans ?_ (ih.append_right [issue])
      rcases addToGroups_cases issue (groupByFile issues) with
        ⟨-, added⟩ | ⟨before, group, after, found, -, added⟩
      · rw [added, List.flatMap_append, List.flatMap_singleton]
      · rw [added, found]
        simp only [List.flatMap_append, List.flatMap_cons, List.append_assoc]
        have last : ([issue] ++ after.flatMap Group.issues).Perm
            (after.flatMap Group.issues ++ [issue]) := List.perm_append_comm
        exact (last.append_left group.issues).append_left _

end TimeoutAudit.Report.Pretty
