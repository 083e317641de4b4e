import TimeoutAudit.CommandLine.Run
import TimeoutAudit.Proofs.FileTree.Write

/-!
# The files that an init leaves

An init looks whether its output leads to something, creates the directory that the output
needs, and writes.  The output may lead elsewhere by then: a path that leaves a missing
directory again leads nowhere before the directory is created, and to an existing file
after that.  This file is then written over (`CommandLine.Overwrites`).

`CommandLine.init_files` says what becomes of every file: those that are not written over
are kept, a file is written over only by an output with a step up, and a new file is there
only after success.
-/

set_option autoImplicit false

namespace TimeoutAudit.CommandLine

/-- The bytes of the settings file that an init writes. -/
def templateBytes : List UInt8 := Settings.template.toUTF8.toList

/-- A file to which an output leads only once the directory that it needs is there. -/
structure Overwrites (tree : FileTree) (output : OsText) (location : Location) : Prop where
  unseen : tree.hasPath output = false
  prepared : (prepare tree output).2 = none
  leads : (prepare tree output).1.resolve output = .ok location
  isFile : ∃ content, tree.entry? location = some (.file content)

/-! ## Preparation -/

theorem prepare_grown (tree : FileTree) (output : OsText) :
    FileTree.Grown tree (prepare tree output).1 := by
  unfold prepare
  split
  · exact .refl tree
  · exact FileTree.createDirectories_grown tree _

theorem hasPath_of_resolve {tree : FileTree} {path : OsText} {location : Location}
    {content : List UInt8} (leads : tree.resolve path = .ok location)
    (file : tree.entry? location = some (.file content)) : tree.hasPath path = true := by
  simp [FileTree.hasPath, FileTree.lookup, leads, file, Except.toOption]

namespace Overwrites

variable {tree : FileTree} {output : OsText} {location : Location}

/-- Where nothing was missing, nothing is written over. -/
theorem prepare_ne (overwrites : Overwrites tree output location) :
    (prepare tree output).1 ≠ tree := by
  intro same
  obtain ⟨content, file⟩ := overwrites.isFile
  have leads := overwrites.leads
  rw [same] at leads
  have seen := hasPath_of_resolve leads file
  rw [overwrites.unseen] at seen
  cases seen

/-- Only a path with a step up leads back to a file. -/
theorem rises (overwrites : Overwrites tree output location) : Path.up ∈ Path.segments output := by
  have changed := overwrites.prepare_ne
  have prepared := overwrites.prepared
  have leads := FileTree.resolve_eq_ok_iff.mp overwrites.leads
  unfold prepare at changed prepared leads
  cases needed : neededDirectory? output with
  | none =>
      rw [needed] at changed
      exact absurd rfl changed
  | some parent =>
      simp only [needed] at changed prepared leads
      obtain ⟨isParent, named⟩ := Option.filter_eq_some_iff.mp needed
      have nonempty : parent ≠ [] := by
        rintro rfl
        exact absurd named (by decide)
      obtain ⟨name, child⟩ := Path.exists_of_parent? isParent nonempty
      by_contra level
      obtain ⟨nameDown, parentLevel⟩ := child.level level
      rcases FileTree.createDirectories_fresh tree parent parentLevel prepared with same | empty
      · exact changed same
      · exact empty.child child nameDown leads

end Overwrites

/-! ## The command -/

/-- An init fails and adds directories only, or it writes and succeeds. -/
theorem init_cases (tree : FileTree) (arguments : InitArguments) :
    ((init tree arguments).2.exitCode = exitError ∧
      FileTree.Grown tree (init tree arguments).1 ∧
      ∀ location, ¬ Overwrites tree arguments.output location) ∨
    ((init tree arguments).2.exitCode = exitSuccess ∧
      tree.hasPath arguments.output = false ∧
      (prepare tree arguments.output).2 = none ∧
      (prepare tree arguments.output).1.writeFile arguments.output templateBytes =
        .ok (init tree arguments).1) := by
  have growth := prepare_grown tree arguments.output
  fun_cases init tree arguments with
  | case1 output seen =>
      refine .inl ⟨rfl, .refl tree, fun location overwrites => ?_⟩
      rw [overwrites.unseen] at seen
      cases seen
  | case2 output unseen partly error prepared =>
      rw [prepared] at growth
      refine .inl ⟨rfl, growth, fun location overwrites => ?_⟩
      have done := overwrites.prepared
      rw [prepared] at done
      cases done
  | case3 output unseen ready prepared error failed =>
      rw [prepared] at growth
      refine .inl ⟨rfl, growth, fun location overwrites => ?_⟩
      -- Where the output leads to a file, this file can be written.
      obtain ⟨content, file⟩ := overwrites.isFile
      have leads := overwrites.leads
      rw [prepared] at leads
      have present := growth.kept location _ (FileTree.view_eq_file_iff.mpr file)
      obtain ⟨written, ok, -⟩ := FileTree.writeFile_of_file leads present templateBytes
      rw [templateBytes, failed] at ok
      cases ok
  | case4 output unseen ready prepared written ok =>
      rw [prepared]
      exact .inr ⟨rfl, by simpa using unseen, rfl, ok⟩

/-- What a successful init leaves: the tree with the directory that the output needs, and the
template at one place.  Nothing stood there, or the file that is written over. -/
theorem init_view (tree : FileTree) (arguments : InitArguments)
    (success : (init tree arguments).2.exitCode = exitSuccess) :
    ∃ place, (init tree arguments).1.view =
        Function.update (prepare tree arguments.output).1.view place (some (.file templateBytes)) ∧
      (∀ location, Overwrites tree arguments.output location → location = place) ∧
      (tree.view place = none ∨ Overwrites tree arguments.output place) := by
  rcases init_cases tree arguments with ⟨failure, _⟩ | ⟨_, unseen, prepared, ok⟩
  · rw [success] at failure
    cases failure
  · have growth := prepare_grown tree arguments.output
    obtain ⟨place, view, ⟨leads, old, file⟩ | ⟨absent, nowhere⟩⟩ := FileTree.writeFile_cases ok
    · refine ⟨place, view, fun location overwrites => ?_, .inr ?_⟩
      · exact Except.ok.inj (overwrites.leads.symm.trans leads)
      · have isFile := FileTree.view_eq_file_iff.mp ((growth.file_iff place old).mp file)
        exact ⟨unseen, prepared, leads, old, isFile⟩
    · refine ⟨place, view, fun location overwrites => ?_, .inl ?_⟩
      · exact absurd overwrites.leads (nowhere location)
      · rcases growth place with same | ⟨nothing, _⟩
        · rw [← same, absent]
        · exact nothing

/-- What is written over holds the template. -/
theorem init_overwritten {tree : FileTree} {arguments : InitArguments} {location : Location}
    (overwrites : Overwrites tree arguments.output location) :
    (init tree arguments).2.exitCode = exitSuccess ∧
      FileTree.entry? (init tree arguments).1 location = some (.file templateBytes) := by
  rcases init_cases tree arguments with ⟨_, _, none⟩ | ⟨success, _⟩
  · exact absurd overwrites (none location)
  · obtain ⟨place, view, only, _⟩ := init_view tree arguments success
    refine ⟨success, FileTree.view_eq_file_iff.mp ?_⟩
    rw [view, only location overwrites, Function.update_self]

/-- A file that is not written over is kept. -/
theorem init_kept {tree : FileTree} {arguments : InitArguments} {location : Location}
    {content : List UInt8} (file : tree.entry? location = some (.file content))
    (spared : ¬ Overwrites tree arguments.output location) :
    FileTree.entry? (init tree arguments).1 location = some (.file content) := by
  have seen := FileTree.view_eq_file_iff.mpr file
  refine FileTree.view_eq_file_iff.mp ?_
  rcases init_cases tree arguments with ⟨_, growth, _⟩ | ⟨success, _⟩
  · exact growth.kept location _ seen
  · obtain ⟨place, view, _, origin⟩ := init_view tree arguments success
    have elsewhere : location ≠ place := by
      rintro rfl
      rcases origin with absent | overwritten
      · simp [absent] at seen
      · exact spared overwritten
    rw [view, Function.update_of_ne elsewhere]
    exact (prepare_grown tree arguments.output).kept location _ seen

/-- A new file is there only after a success, in a place where nothing stood. -/
theorem init_new {tree : FileTree} {arguments : InitArguments} {location : Location}
    {content : List UInt8}
    (left : FileTree.entry? (init tree arguments).1 location = some (.file content))
    (new : ∀ old, tree.entry? location ≠ some (.file old)) :
    (init tree arguments).2.exitCode = exitSuccess ∧ content = templateBytes ∧
      tree.entry? location = none := by
  have seen := FileTree.view_eq_file_iff.mpr left
  rcases init_cases tree arguments with ⟨_, growth, _⟩ | ⟨success, _⟩
  · have old := (growth.file_iff location content).mp seen
    exact absurd (FileTree.view_eq_file_iff.mp old) (new content)
  · obtain ⟨place, view, _, origin⟩ := init_view tree arguments success
    rw [view] at seen
    by_cases here : location = place
    · subst here
      rw [Function.update_self] at seen
      cases seen
      rcases origin with absent | overwritten
      · exact ⟨success, rfl, Option.map_eq_none_iff.mp absent⟩
      · obtain ⟨old, file⟩ := overwritten.isFile
        exact absurd file (new old)
    · rw [Function.update_of_ne here] at seen
      have old := ((prepare_grown tree arguments.output).file_iff location content).mp seen
      exact absurd (FileTree.view_eq_file_iff.mp old) (new content)

/-- **What becomes of every file.**  A file keeps its content if and only if it is not
written over, or held the same bytes already.  What is written over holds the template after
a success, and this takes an output with a step up and a directory that was missing.  A new
file is there only after a success; it is the template, and nothing stood in its place. -/
theorem init_files (tree : FileTree) (arguments : InitArguments) :
    (∀ location content, tree.entry? location = some (.file content) →
      (FileTree.entry? (init tree arguments).1 location = some (.file content) ↔
        (Overwrites tree arguments.output location → content = templateBytes))) ∧
    (∀ location, Overwrites tree arguments.output location →
      FileTree.entry? (init tree arguments).1 location = some (.file templateBytes) ∧
      (init tree arguments).2.exitCode = exitSuccess ∧
      Path.up ∈ Path.segments arguments.output ∧ (prepare tree arguments.output).1 ≠ tree) ∧
    ∀ location content, FileTree.entry? (init tree arguments).1 location = some (.file content) →
      (∀ old, tree.entry? location ≠ some (.file old)) →
      (init tree arguments).2.exitCode = exitSuccess ∧ content = templateBytes ∧
        tree.entry? location = none := by
  refine ⟨?_, ?_, ?_⟩
  · intro location content file
    by_cases overwrites : Overwrites tree arguments.output location
    · rw [(init_overwritten overwrites).2]
      constructor
      · rintro ⟨⟩ _
        rfl
      · intro same
        rw [same overwrites]
    · exact ⟨fun _ written => absurd written overwrites, fun _ => init_kept file overwrites⟩
  · intro location overwrites
    obtain ⟨success, template⟩ := init_overwritten overwrites
    exact ⟨template, success, overwrites.rises, overwrites.prepare_ne⟩
  · intro location content left new
    exact init_new left new

/-- A settings file that someone added a line to, in an otherwise empty working directory. -/
def editedTree : FileTree where
  root := .directory [("timeoutguard.yaml", .file (templateBytes ++ [35, 10]))]
  here := []

theorem overwrites_edited :
    Overwrites editedTree "missing/../timeoutguard.yaml" ["timeoutguard.yaml"] :=
  ⟨by decide +kernel, by decide +kernel, rfl, _, rfl⟩

/-- **An init can write over a file,** and lose what someone added to it. -/
theorem init_loses_edited :
    ¬ ∀ location content, editedTree.entry? location = some (.file content) →
      FileTree.entry? (init editedTree ⟨"missing/../timeoutguard.yaml"⟩).1 location =
        some (.file content) := by
  intro kept
  have same := kept ["timeoutguard.yaml"] (templateBytes ++ [35, 10]) rfl
  rw [(init_overwritten overwrites_edited).2] at same
  simp at same

/-- The same file is written over through a missing directory, and kept by an output beside
it. -/
theorem init_files_edited :
    FileTree.entry? (init editedTree ⟨"missing/../timeoutguard.yaml"⟩).1 ["timeoutguard.yaml"] =
        some (.file templateBytes) ∧
      FileTree.entry? (init editedTree ⟨"missing/other.yaml"⟩).1 ["timeoutguard.yaml"] =
        some (.file (templateBytes ++ [35, 10])) := by
  refine ⟨((init_files editedTree _).2.1 _ overwrites_edited).1, ?_⟩
  refine ((init_files editedTree _).1 _ _ rfl).mpr fun overwrites => ?_
  exact absurd overwrites.rises (by decide +kernel)

end TimeoutAudit.CommandLine
