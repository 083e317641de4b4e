import TimeoutAudit.Proofs.FileTree.Walk

/-!
# The order of a walk

A walk meets the files below a directory in the lexicographic order of the names that lead to
them (`FileTree.walkWithin_files_pairwise`): in every directory the names are in order, and what
is below a name comes in its place.

Trees in which the same stands at every location look the same to a walk, in whatever order
their entries were created (`FileTree.SameContents.walk_eq`).
-/

set_option autoImplicit false

namespace TimeoutAudit.FileTree

variable {tree : FileTree} {root : OsText} {directory : Opened} {above : List Opened}
  {name : OsText}

/-! ## Files in order -/

/-- The names that lead to a file that is met. -/
def Encounter.file? : Encounter → Option (List OsText)
  | .file names => some names
  | .unreadable _ => none

theorem mem_filterMap_file?_iff {encounters : List Encounter} {names : List OsText} :
    names ∈ encounters.filterMap Encounter.file? ↔ .file names ∈ encounters := by
  rw [List.mem_filterMap]
  constructor
  · rintro ⟨encounter, member, isFile⟩
    cases encounter with
    | file other =>
        obtain rfl : other = names := Option.some.inj isFile
        exact member
    | unreadable error => cases isFile
  · intro member
    exact ⟨_, member, rfl⟩

/-- Under one name at most one thing is met. -/
theorem length_le_of_met {found : List Encounter}
    (sight : tree.look root directory above name = .met found) : found.length ≤ 1 := by
  unfold look Sight.unlessHidden at sight
  repeat' split at sight
  all_goals cases sight
  all_goals simp

/-- The files that are met under a name have it behind the names of the directory. -/
theorem prefix_of_file_mem_encounters {descend : Opened → List Encounter} {names : List OsText}
    (below : ∀ opened, .file names ∈ descend opened → opened.names <+: names)
    (met : .file names ∈ (tree.look root directory above name).encounters descend) :
    directory.names ++ [name] <+: names := by
  cases sight : tree.look root directory above name with
  | met found =>
      rw [sight] at met
      obtain ⟨-, same, -⟩ := look_file_iff.mp ⟨found, sight, met⟩
      exact same ▸ List.prefix_rfl
  | inside opened =>
      rw [sight] at met
      obtain ⟨-, openedNames, -⟩ := look_eq_inside sight
      rw [← openedNames]
      exact below opened met

/-- The files below a directory have its names in front of theirs. -/
theorem prefix_of_file_mem_walkWithin {depth : Nat} {names : List OsText}
    (met : .file names ∈ tree.walkWithin root depth directory above) :
    directory.names <+: names := by
  induction depth generalizing directory above with
  | zero => simp [walkWithin] at met
  | succ depth ih =>
      rw [walkWithin_succ, List.mem_flatMap] at met
      obtain ⟨name, -, met⟩ := met
      have deeper := prefix_of_file_mem_encounters (fun opened inside => ih inside) met
      exact (List.prefix_append _ _).trans deeper

/-- **A walk meets files in the lexicographic order of their names.** -/
theorem walkWithin_files_pairwise (depth : Nat) (directory : Opened) (above : List Opened) :
    ((tree.walkWithin root depth directory above).filterMap Encounter.file?).Pairwise
      (List.Lex (· < ·)) := by
  induction depth generalizing directory above with
  | zero => simp [walkWithin]
  | succ depth ih =>
      rw [walkWithin_succ, List.filterMap_flatMap, List.pairwise_flatMap]
      constructor
      · intro name _
        cases sight : tree.look root directory above name with
        | met found =>
            have single : (found.filterMap Encounter.file?).length ≤ 1 :=
              (List.length_filterMap_le _ _).trans (length_le_of_met sight)
            rw [Sight.encounters_met, List.pairwise_iff_getElem]
            intro position next inside nextInside less
            omega
        | inside opened => exact ih opened (directory :: above)
      · refine (tree.names_pairwise directory.location).imp ?_
        intro first second less names inFirst others inSecond
        obtain ⟨rest, rfl⟩ := prefix_of_file_mem_encounters
          (fun opened => prefix_of_file_mem_walkWithin) (mem_filterMap_file?_iff.mp inFirst)
        obtain ⟨otherRest, rfl⟩ := prefix_of_file_mem_encounters
          (fun opened => prefix_of_file_mem_walkWithin) (mem_filterMap_file?_iff.mp inSecond)
        rw [List.append_assoc, List.append_assoc]
        exact List.Lex.append_left _ (.rel less) _

/-! ## Trees with the same contents -/

namespace SameContents

variable {other : FileTree} (same : SameContents tree other)

include same

theorem advance_eq (followLast : Bool) (current : Location) (segments : List OsText) :
    tree.advance followLast current segments = other.advance followLast current segments := by
  induction segments generalizing current with
  | nil => rfl
  | cons segment rest ih => simp only [advance_cons, same.view, ih]

theorem follow_eq (followLast : Bool) (links : Nat) (current : Location)
    (segments : List OsText) :
    tree.follow followLast links current segments =
      other.follow followLast links current segments := by
  induction links generalizing current segments with
  | zero => rw [follow, follow, same.advance_eq]
  | succ links ih =>
      rw [follow, follow, same.advance_eq]
      cases other.advance followLast current segments with
      | link directory target rest => exact ih _ _
      | arrived location => rfl
      | missing directory name slashed => rfl
      | failed error => rfl

theorem resolve_eq (path : OsText) : tree.resolve path = other.resolve path := by
  unfold resolve spot startOf
  rw [same.follow_eq, same.here]

theorem read_eq (path : OsText) : tree.read path = other.read path := by
  unfold read lookup
  rw [same.resolve_eq]
  cases other.resolve path with
  | error reason => rfl
  | ok location =>
      have seen := same.view location
      rw [view_eq, view_eq] at seen
      cases first : tree.entry? location with
      | none =>
          rw [first] at seen
          cases second : other.entry? location with
          | none => simp [first, second]
          | some entry => simp [second] at seen
      | some entry =>
          rw [first] at seen
          cases second : other.entry? location with
          | none => simp [second] at seen
          | some copy =>
              rw [second] at seen
              cases entry <;> cases copy <;> simp [Entry.shape] at seen <;>
                simp [first, second, seen]

theorem look_eq (root : OsText) (directory : Opened) (above : List Opened) (name : OsText) :
    tree.look root directory above name = other.look root directory above name := by
  simp only [look, same.view, same.resolve_eq]

theorem walkWithin_eq (root : OsText) (depth : Nat) (directory : Opened) (above : List Opened) :
    tree.walkWithin root depth directory above =
      other.walkWithin root depth directory above := by
  induction depth generalizing directory above with
  | zero => rfl
  | succ depth ih =>
      simp only [walkWithin_succ, same.names_eq, same.look_eq, ih]

/-- **A walk does not depend on the order in which entries were created.** -/
theorem walk_eq (root : OsText) (location : Location) :
    tree.walk root location = other.walk root location := by
  -- Where a name is listed twice the trees may differ in size, so both are walked more deeply.
  let depth := max ((tree.root.size + 1) * (tree.root.size + 1))
    ((other.root.size + 1) * (other.root.size + 1))
  calc
    tree.walk root location = tree.walkWithin root depth ⟨location, []⟩ [] :=
      (walkWithin_eq_walk (Nat.le_max_left _ _)).symm
    _ = other.walkWithin root depth ⟨location, []⟩ [] := same.walkWithin_eq root depth _ _
    _ = other.walk root location := walkWithin_eq_walk (Nat.le_max_right _ _)

end SameContents

end TimeoutAudit.FileTree
