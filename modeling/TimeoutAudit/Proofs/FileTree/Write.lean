import TimeoutAudit.Proofs.FileTree.Follow

/-!
# What changes to a file tree leave as it is

Whatever comes of it, creating directories adds directories to a tree and leaves all else
as it is (`FileTree.createDirectories_grown`).  Writing a file changes the view in one place,
where nothing or a file stood before (`FileTree.writeFile_cases`).

A path may lead elsewhere in the tree that is left, though.  What can be said of a path
without a step up is this: if its directories could be created, then either nothing was
missing, or the path leads to an empty directory now (`FileTree.createDirectories_fresh`).
-/

set_option autoImplicit false

namespace TimeoutAudit.FileTree

/-! ## Growth -/

/-- A tree with directories added to it. -/
def Grown (tree grown : FileTree) : Prop :=
  ∀ location, grown.view location = tree.view location ∨
    (tree.view location = none ∧ grown.view location = some .directory)

namespace Grown

variable {tree grown : FileTree}

theorem refl (tree : FileTree) : Grown tree tree := fun _ => .inl rfl

theorem trans {further : FileTree} (first : Grown tree grown) (second : Grown grown further) :
    Grown tree further := by
  intro location
  rcases second location with same | ⟨absent, created⟩
  · rw [same]
    exact first location
  · rcases first location with same | ⟨_, present⟩
    · exact .inr ⟨same ▸ absent, created⟩
    · rw [present] at absent
      cases absent

/-- What stands somewhere stays there. -/
theorem kept (growth : Grown tree grown) (location : Location) (shape : Shape)
    (present : tree.view location = some shape) : grown.view location = some shape := by
  rcases growth location with same | ⟨absent, _⟩
  · rw [same, present]
  · rw [present] at absent
    cases absent

/-- The files are the same. -/
theorem file_iff (growth : Grown tree grown) (location : Location) (content : List UInt8) :
    grown.view location = some (.file content) ↔ tree.view location = some (.file content) := by
  rcases growth location with same | ⟨absent, created⟩
  · rw [same]
  · simp [absent, created]

end Grown

/-! ## One directory -/

/-- A path that leads to a place with nothing in it. -/
def LeadsToEmpty (tree : FileTree) (path : OsText) : Prop :=
  ∃ location, tree.spot true path = .ok (.present location) ∧
    ∀ name, tree.view (location ++ [name]) = none

variable {tree created : FileTree} {path : OsText}

/-- A directory is created at a name that is missing. -/
theorem createDirectory_eq_ok (ok : tree.createDirectory path = .ok created) :
    ∃ directory name slashed, tree.spot false path = .ok (.absent directory name slashed) ∧
      created = tree.put (directory ++ [name]) (.directory []) ∧
      created.view = Function.update tree.view (directory ++ [name]) (some .directory) := by
  unfold createDirectory create at ok
  split at ok
  · cases ok
  · cases ok
  · next directory name slashed missing =>
      cases ok
      obtain ⟨inside, absent⟩ := spot_absent missing
      exact ⟨directory, name, slashed, missing, rfl,
        view_put_new Entry.bare_directory inside absent⟩

theorem createDirectory_grown (ok : tree.createDirectory path = .ok created) :
    Grown tree created := by
  obtain ⟨directory, name, slashed, missing, -, view⟩ := createDirectory_eq_ok ok
  intro location
  rw [view]
  by_cases here : location = directory ++ [name]
  · subst here
    exact .inr ⟨(spot_absent missing).2, Function.update_self ..⟩
  · exact .inl (Function.update_of_ne here ..)

/-- **A path leads to the directory that was created for it.** -/
theorem createDirectory_leadsToEmpty (ok : tree.createDirectory path = .ok created) :
    LeadsToEmpty created path := by
  have growth := createDirectory_grown ok
  obtain ⟨directory, name, slashed, missing, rfl, view⟩ := createDirectory_eq_ok ok
  obtain ⟨nonempty, route⟩ := spot_eq_ok_iff.mp missing
  refine ⟨directory ++ [name], spot_eq_ok_iff.mpr ⟨nonempty, ?_⟩, fun other => ?_⟩
  · exact route.filled growth.kept (by rw [view, Function.update_self])
  · rw [view, Function.update_of_ne (by simp)]
    have absent := (spot_absent missing).2
    exact view_below_of_ne_directory (by simp [absent]) other []

/-- A path below an empty directory leads to nothing. -/
theorem LeadsToEmpty.child {parent name : OsText} {location : Location}
    (empty : LeadsToEmpty tree parent) (child : Path.Child parent path name)
    (down : name ≠ Path.up) : tree.spot true path ≠ .ok (.present location) := by
  obtain ⟨place, leads, nothing⟩ := empty
  exact spot_ne_present_of_child child down leads (nothing name)

theorem resolve_eq_ok_iff {location : Location} :
    tree.resolve path = .ok location ↔ tree.spot true path = .ok (.present location) := by
  rw [resolve]
  cases tree.spot true path with
  | error error => simp
  | ok spot =>
      cases spot with
      | present other => simp
      | absent directory name slashed => simp

theorem isDirectory_eq_true (present : tree.isDirectory path = true) :
    ∃ location, tree.spot true path = .ok (.present location) := by
  unfold isDirectory lookup at present
  cases leads : tree.resolve path with
  | error error => simp [leads] at present
  | ok location => exact ⟨location, resolve_eq_ok_iff.mp leads⟩

/-! ## A directory and those above it -/

theorem ensureDirectory_grown (tree : FileTree) (path : OsText) :
    Grown tree (tree.ensureDirectory path).1 := by
  unfold ensureDirectory
  split
  · next created ok => exact createDirectory_grown ok
  · exact .refl tree

theorem createAllWithin_grown (depth : Nat) (tree : FileTree) (path : OsText) :
    Grown tree (createAllWithin depth tree path).1 := by
  fun_induction createAllWithin depth tree path with
  | case1 tree => exact .refl tree
  | case2 _ tree => exact .refl tree
  | case3 _ _ _ _ _ ok => exact createDirectory_grown ok
  | case4 _ tree => exact .refl tree
  | case5 _ _ _ _ _ _ _ _ _ partly ih =>
      rw [partly] at ih
      exact ih
  | case6 _ _ path _ _ _ _ ready done ih =>
      rw [done] at ih
      exact ih.trans (ensureDirectory_grown ready path)
  | case7 _ tree => exact .refl tree

/-- **Creating directories adds directories and changes nothing else.** -/
theorem createDirectories_grown (tree : FileTree) (path : OsText) :
    Grown tree (tree.createDirectories path).1 :=
  createAllWithin_grown _ tree path

theorem ensureDirectory_of_error {error : OsError}
    (failed : tree.createDirectory path = .error error) : (tree.ensureDirectory path).1 = tree := by
  rw [ensureDirectory, failed]

/-- Below an empty directory, a directory can only be created. -/
theorem ensureDirectory_leadsToEmpty {parent name : OsText} (empty : LeadsToEmpty tree parent)
    (child : Path.Child parent path name) (down : name ≠ Path.up)
    (done : (tree.ensureDirectory path).2 = none) :
    LeadsToEmpty (tree.ensureDirectory path).1 path := by
  unfold ensureDirectory at done ⊢
  split at done
  · next created ok => exact createDirectory_leadsToEmpty ok
  · by_cases present : tree.isDirectory path = true
    · obtain ⟨location, leads⟩ := isDirectory_eq_true present
      exact absurd leads (empty.child child down)
    · simp [present] at done

theorem createAllWithin_fresh (depth : Nat) (tree : FileTree) (path : OsText)
    (down : Path.up ∉ Path.segments path) (done : (createAllWithin depth tree path).2 = none) :
    (createAllWithin depth tree path).1 = tree ∨
      LeadsToEmpty (createAllWithin depth tree path).1 path := by
  fun_induction createAllWithin depth tree path with
  | case1 => exact .inl rfl
  | case2 => exact .inl rfl
  | case3 _ _ _ _ _ ok => exact .inr (createDirectory_leadsToEmpty ok)
  | case4 => cases done
  | case5 => cases done
  | case6 depth tree path _ failed parent isParent ready above ih =>
      rw [above] at ih
      by_cases blank : parent = []
      · subst blank
        -- Nothing is created for the empty path, and it leads nowhere.
        rcases ih (by decide) rfl with same | ⟨_, leads, _⟩
        · cases same
          exact .inl (ensureDirectory_of_error failed)
        · exact absurd rfl (spot_eq_ok_iff.mp leads).1
      · obtain ⟨name, child⟩ := Path.exists_of_parent? isParent blank
        obtain ⟨nameDown, parentDown⟩ := child.level down
        rcases ih parentDown rfl with same | empty
        · cases same
          exact .inl (ensureDirectory_of_error failed)
        · exact .inr (ensureDirectory_leadsToEmpty empty child nameDown done)
  | case7 => exact .inl rfl

/-- **Directories for a path without a step up:** either nothing was missing, or the path
leads to an empty directory now. -/
theorem createDirectories_fresh (tree : FileTree) (path : OsText)
    (down : Path.up ∉ Path.segments path) (done : (tree.createDirectories path).2 = none) :
    (tree.createDirectories path).1 = tree ∨
      LeadsToEmpty (tree.createDirectories path).1 path :=
  createAllWithin_fresh _ tree path down done

/-! ## Files -/

/-- Writing through a path that leads to a file. -/
theorem writeFile_of_file {location : Location} {old : List UInt8}
    (leads : tree.resolve path = .ok location) (file : tree.view location = some (.file old))
    (content : List UInt8) :
    ∃ written, tree.writeFile path content = .ok written ∧
      written.view = Function.update tree.view location (some (.file content)) := by
  refine ⟨tree.put location (.file content), ?_, view_put_file file content⟩
  rw [writeFile, resolve_eq_ok_iff.mp leads]
  simp only [view_eq_file_iff.mp file]

/-- **A file is written at one place:** where the path leads to a file, or where nothing stood
and the path led nowhere. -/
theorem writeFile_cases {content : List UInt8} {written : FileTree}
    (ok : tree.writeFile path content = .ok written) :
    ∃ location, written.view = Function.update tree.view location (some (.file content)) ∧
      ((tree.resolve path = .ok location ∧ ∃ old, tree.view location = some (.file old)) ∨
        (tree.view location = none ∧ ∀ other, tree.resolve path ≠ .ok other)) := by
  cases ended : tree.spot true path with
  | error error => simp [writeFile, ended] at ok
  | ok spot =>
      cases spot with
      | absent directory name slashed =>
          cases slashed with
          | true => simp [writeFile, ended] at ok
          | false =>
              obtain rfl : tree.put (directory ++ [name]) (.file content) = written := by
                simpa [writeFile, ended] using ok
              obtain ⟨inside, absent⟩ := spot_absent ended
              refine ⟨directory ++ [name], view_put_new (Entry.bare_file content) inside absent,
                .inr ⟨absent, fun other leads => ?_⟩⟩
              rw [resolve_eq_ok_iff, ended] at leads
              cases leads
      | present location =>
          cases here : tree.entry? location with
          | none => simp [writeFile, ended, here] at ok
          | some entry =>
              cases entry with
              | link target => simp [writeFile, ended, here] at ok
              | directory entries => simp [writeFile, ended, here] at ok
              | file old =>
                  obtain rfl : tree.put location (.file content) = written := by
                    simpa [writeFile, ended, here] using ok
                  have file := view_eq_file_iff.mpr here
                  exact ⟨location, view_put_file file content,
                    .inl ⟨resolve_eq_ok_iff.mpr ended, old, file⟩⟩

end TimeoutAudit.FileTree
