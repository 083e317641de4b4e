import Mathlib.Logic.Function.Basic
import TimeoutAudit.FileTree.Write

/-!
# File trees as functions of locations

What stands at a location is a file with its content, a link with its target, or a
directory; what a directory holds is said by the locations below it.  The view of a tree
is this function of locations (`FileTree.view`).  Nothing stands below anything but a
directory (`FileTree.view_of_below`).

Putting a file or an empty directory in a place where nothing is lost by it changes the
view in that place and nowhere else (`FileTree.view_put_new`, `FileTree.view_put_file`).
-/

set_option autoImplicit false

namespace TimeoutAudit

/-- What stands at a location. -/
inductive Shape where
  | file (content : List UInt8)
  | directory
  | link (target : OsText)
deriving DecidableEq, Repr

namespace Entry

/-- An entry without what is in it. -/
def shape : Entry → Shape
  | .file content => .file content
  | .directory _ => .directory
  | .link target => .link target

/-- What stands at a location, seen from an entry. -/
def view (entry : Entry) (location : Location) : Option Shape := (entry.at? location).map shape

theorem shape_eq_directory_iff {entry : Entry} :
    entry.shape = .directory ↔ ∃ entries, entry = .directory entries := by
  cases entry with
  | file content => simp [shape]
  | directory entries => simp [shape]
  | link target => simp [shape]

theorem shape_eq_file_iff {entry : Entry} {content : List UInt8} :
    entry.shape = .file content ↔ entry = .file content := by
  cases entry with
  | file other => simp [shape]
  | directory entries => simp [shape]
  | link target => simp [shape]

/-! ## Looking up -/

theorem at?_append (entry : Entry) (first second : Location) :
    entry.at? (first ++ second) = (entry.at? first).bind (·.at? second) := by
  induction first generalizing entry with
  | nil => rfl
  | cons name rest ih =>
      rw [List.cons_append, at?, at?]
      cases entry.child? name with
      | none => rfl
      | some child => exact ih child

@[simp] theorem view_nil (entry : Entry) : entry.view [] = some entry.shape := rfl

theorem view_cons (entry : Entry) (name : OsText) (rest : Location) :
    entry.view (name :: rest) = (entry.child? name).bind (·.view rest) := by
  rw [view, at?]
  cases entry.child? name with
  | none => rfl
  | some child => rfl

theorem view_append (entry : Entry) (first second : Location) :
    entry.view (first ++ second) = (entry.at? first).bind (·.view second) := by
  rw [view, at?_append, Option.map_bind]
  rfl

theorem lookup_cons_eq {α : Type} (key name : OsText) (value : α) (rest : List (OsText × α)) :
    List.lookup key ((name, value) :: rest) =
      if key = name then some value else rest.lookup key := by
  by_cases same : key = name
  · simp [same]
  · have different : (key == name) = false := beq_false_of_ne same
    simp [List.lookup_cons, different, same]

theorem lookup_replace {α : Type} (name key : OsText) (value : α) (entries : List (OsText × α)) :
    (replace name value entries).lookup key =
      if key = name then some value else entries.lookup key := by
  induction entries with
  | nil => rw [replace, lookup_cons_eq]
  | cons entry rest ih =>
      obtain ⟨other, old⟩ := entry
      by_cases here : other = name
      · subst here
        simp only [replace, beq_self_eq_true, if_true, lookup_cons_eq]
        split <;> rfl
      · have different : (other == name) = false := beq_false_of_ne here
        simp only [replace, different, Bool.false_eq_true, if_false, lookup_cons_eq, ih]
        by_cases same : key = other
        · subst same
          simp [here]
        · simp [same]

/-! ## Putting -/

/-- Nothing stands below an entry. -/
def Bare (entry : Entry) : Prop := ∀ name, entry.child? name = none

theorem bare_file (content : List UInt8) : (Entry.file content).Bare := fun _ => rfl

theorem bare_directory : (Entry.directory []).Bare := fun _ => rfl

theorem Bare.view_cons {entry : Entry} (bare : entry.Bare) (name : OsText) (rest : Location) :
    entry.view (name :: rest) = none := by
  rw [Entry.view_cons, bare name]
  rfl

theorem put_cons {new : Entry} (name : OsText) (rest : Location)
    (entries : List (OsText × Entry)) {child : Entry} (found : entries.lookup name = some child) :
    new.put (name :: rest) (.directory entries) =
      .directory (replace name (new.put rest child) entries) := by
  cases rest with
  | nil => simp only [put]
  | cons second others => simp only [put, found]

/-- The view of a directory in which one name stands for something else. -/
theorem view_replace (entries : List (OsText × Entry)) (name : OsText) (value : Entry)
    (key : OsText) (rest : Location) :
    (Entry.directory (replace name value entries)).view (key :: rest) =
      if key = name then value.view rest else (Entry.directory entries).view (key :: rest) := by
  rw [view_cons, view_cons, child?, child?, lookup_replace]
  split <;> rfl

/-- A location where an entry can be put so that nothing below it is lost: its directory
exists, and nothing stands below it. -/
structure Open (entry : Entry) (location : Location) : Prop where
  inside : ∀ directory name, location = directory ++ [name] →
    entry.view directory = some .directory
  free : ∀ name rest, entry.view (location ++ name :: rest) = none

/-- What stands further down is seen from the entry with the first name. -/
theorem view_cons_of_lookup {entries : List (OsText × Entry)} {name : OsText} {child : Entry}
    (found : entries.lookup name = some child) (rest : Location) :
    (Entry.directory entries).view (name :: rest) = child.view rest := by
  rw [view_cons, child?, found]
  rfl

theorem exists_child_of_view {entry : Entry} {name : OsText} {rest : Location} {shape : Shape}
    (seen : entry.view (name :: rest) = some shape) :
    ∃ entries child, entry = .directory entries ∧ entries.lookup name = some child := by
  cases entry with
  | file content => simp [view_cons, child?] at seen
  | link target => simp [view_cons, child?] at seen
  | directory entries =>
      cases found : entries.lookup name with
      | none => simp [view_cons, child?, found] at seen
      | some child => exact ⟨entries, child, rfl, found⟩

/-- A place further down is open from the entry with the first name. -/
theorem Open.child {entry : Entry} {name second : OsText} {others : Location}
    (isOpen : entry.Open (name :: second :: others)) :
    ∃ entries child, entry = .directory entries ∧ entries.lookup name = some child ∧
      child.Open (second :: others) := by
  obtain ⟨directory, last, split⟩ : ∃ directory last, second :: others = directory ++ [last] :=
    ⟨_, _, (List.dropLast_concat_getLast (List.cons_ne_nil second others)).symm⟩
  have above := isOpen.inside (name :: directory) last (by rw [split]; rfl)
  obtain ⟨entries, child, rfl, found⟩ := exists_child_of_view above
  refine ⟨entries, child, rfl, found, ?_, ?_⟩
  · intro deeper final same
    rw [← view_cons_of_lookup found]
    exact isOpen.inside (name :: deeper) final (by rw [same]; rfl)
  · intro key rest
    rw [← view_cons_of_lookup found]
    exact isOpen.free key rest

/-- **A bare entry that is put in an open place changes the view in this place only.** -/
theorem view_put {new : Entry} (bare : new.Bare) {entry : Entry} {location : Location}
    (isOpen : entry.Open location) :
    (new.put location entry).view = Function.update entry.view location (some new.shape) := by
  induction location generalizing entry with
  | nil =>
      funext other
      cases other with
      | nil => simp [put]
      | cons name rest =>
          have empty : entry.view (name :: rest) = none := isOpen.free name rest
          simp [put, bare.view_cons, empty]
  | cons name rest ih =>
      -- In the last directory the name may be new; further up it stands for a directory.
      cases rest with
      | nil =>
          obtain ⟨entries, rfl⟩ :=
            shape_eq_directory_iff.mp (Option.some.inj (isOpen.inside [] name rfl))
          funext other
          match other with
          | [] => rfl
          | key :: tail =>
              rw [put, view_replace]
              by_cases same : key = name
              · subst same
                cases tail with
                | nil => simp
                | cons second tail =>
                    have empty := isOpen.free second tail
                    simp only [List.cons_append, List.nil_append] at empty
                    simp [bare.view_cons, empty]
              · simp [same]
      | cons second others =>
          obtain ⟨entries, child, rfl, found, childOpen⟩ := isOpen.child
          rw [put_cons name _ entries found]
          funext other
          match other with
          | [] => rfl
          | key :: tail =>
              rw [view_replace, ih childOpen]
              by_cases same : key = name
              · subst same
                by_cases whole : tail = second :: others
                · simp [whole]
                · simp [whole, view_cons_of_lookup found]
              · simp [same]

end Entry

namespace FileTree

/-! ## Trees -/

/-- What stands at a location of a tree. -/
def view (tree : FileTree) (location : Location) : Option Shape := tree.root.view location

theorem view_eq (tree : FileTree) (location : Location) :
    tree.view location = (tree.entry? location).map Entry.shape := rfl

theorem view_eq_file_iff {tree : FileTree} {location : Location} {content : List UInt8} :
    tree.view location = some (.file content) ↔
      tree.entry? location = some (.file content) := by
  rw [view_eq, Option.map_eq_some_iff]
  constructor
  · rintro ⟨entry, found, shape⟩
    rw [found, Entry.shape_eq_file_iff.mp shape]
  · intro found
    exact ⟨_, found, rfl⟩

theorem view_eq_directory_iff {tree : FileTree} {location : Location} :
    tree.view location = some .directory ↔
      ∃ entries, tree.entry? location = some (.directory entries) := by
  rw [view_eq, Option.map_eq_some_iff]
  constructor
  · rintro ⟨entry, found, shape⟩
    obtain ⟨entries, rfl⟩ := Entry.shape_eq_directory_iff.mp shape
    exact ⟨entries, found⟩
  · rintro ⟨entries, found⟩
    exact ⟨_, found, rfl⟩

/-- In a directory, a name stands for what is at the location one step further. -/
theorem view_concat {tree : FileTree} {location : Location} {entries : List (OsText × Entry)}
    (found : tree.entry? location = some (.directory entries)) (name : OsText) :
    tree.view (location ++ [name]) = (entries.lookup name).map Entry.shape := by
  rw [view, Entry.view_append]
  show (tree.entry? location).bind _ = _
  rw [found]
  cases inner : entries.lookup name with
  | none => simp [Entry.view_cons, Entry.child?, inner]
  | some child => simp [Entry.view_cons, Entry.child?, inner]

/-- Something stands below directories only. -/
theorem view_of_below {tree : FileTree} {location : Location} {name : OsText} {rest : Location}
    {shape : Shape} (seen : tree.view (location ++ name :: rest) = some shape) :
    tree.view location = some .directory := by
  rw [view, Entry.view_append, Option.bind_eq_some_iff] at seen
  obtain ⟨entry, found, below⟩ := seen
  obtain ⟨entries, child, rfl, -⟩ := Entry.exists_child_of_view below
  exact view_eq_directory_iff.mpr ⟨entries, found⟩

theorem view_below_of_ne_directory {tree : FileTree} {location : Location}
    (notDirectory : tree.view location ≠ some .directory) (name : OsText) (rest : Location) :
    tree.view (location ++ name :: rest) = none := by
  cases seen : tree.view (location ++ name :: rest) with
  | none => rfl
  | some shape => exact absurd (view_of_below seen) notDirectory

/-- A new name in a directory changes the view there only. -/
theorem view_put_new {tree : FileTree} {directory : Location} {name : OsText} {new : Entry}
    (bare : new.Bare) (exists_ : tree.view directory = some .directory)
    (absent : tree.view (directory ++ [name]) = none) :
    (tree.put (directory ++ [name]) new).view =
      Function.update tree.view (directory ++ [name]) (some new.shape) := by
  refine Entry.view_put bare ⟨?_, ?_⟩
  · intro other last same
    obtain ⟨rfl, -⟩ := List.append_inj' same rfl
    exact exists_
  · intro key rest
    exact view_below_of_ne_directory (by simp [absent]) key rest

/-- Writing over a file changes the view there only. -/
theorem view_put_file {tree : FileTree} {location : Location} {old : List UInt8}
    (present : tree.view location = some (.file old)) (content : List UInt8) :
    (tree.put location (.file content)).view =
      Function.update tree.view location (some (.file content)) := by
  refine Entry.view_put (Entry.bare_file content) ⟨?_, ?_⟩
  · rintro directory name rfl
    exact view_of_below present
  · intro key rest
    exact view_below_of_ne_directory (by simp [present]) key rest

end FileTree

end TimeoutAudit
