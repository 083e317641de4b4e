import Mathlib.Data.List.Induction
import TimeoutAudit.FileTree.Walk
import TimeoutAudit.Proofs.FileTree.Locations
import TimeoutAudit.Proofs.FileTree.Write

/-!
# Paths below a directory

Names are put behind the path of a directory one by one.  The segments of the result are those
of the directory, without an empty one at its end, and the names
(`FileTree.exists_segments_pathBelow`), so the path tells the names
(`FileTree.pathBelow_injective`).

In a tree whose names can be names (`FileTree.WellNamed`), one name more leads one step further:
to the entry that it stands for, or to where the link leads (`FileTree.resolve_join_plain`,
`FileTree.isSome_view_of_resolve_join`).
-/

set_option autoImplicit false

namespace TimeoutAudit

namespace Path

/-- A name that can be a component of a path. -/
structure IsComponent (name : OsText) : Prop where
  nonempty : name ≠ []
  noSlash : slash ∉ name

instance (name : OsText) : Decidable (IsComponent name) :=
  decidable_of_iff (name ≠ [] ∧ slash ∉ name)
    ⟨fun ⟨nonempty, noSlash⟩ => ⟨nonempty, noSlash⟩,
      fun component => ⟨component.nonempty, component.noSlash⟩⟩

namespace IsComponent

variable {name : OsText}

theorem segments_eq (component : IsComponent name) : segments name = [name] :=
  segments_of_noSlash component.noSlash

theorem not_absolute (component : IsComponent name) : isAbsolute name = false := by
  unfold isAbsolute
  cases name with
  | nil => rfl
  | cons first rest =>
      have noSlash := component.noSlash
      rw [List.mem_cons, not_or] at noSlash
      simpa using Ne.symm noSlash.1

end IsComponent

/-- A path to which a name is joined by a slash. -/
structure Plain (path : OsText) : Prop where
  nonempty : path ≠ []
  unslashed : path.getLast? ≠ some slash

theorem join_of_plain {path name : OsText} (plain : Plain path) (component : IsComponent name) :
    join path name = path ++ slash :: name := by
  have noSlash : (path.isEmpty || path.getLast? == some slash) = false := by
    simp [plain.nonempty, plain.unslashed]
  rw [join, component.not_absolute, noSlash]
  rfl

theorem join_of_slash {path name : OsText} (slashed : path.getLast? = some slash)
    (component : IsComponent name) : join path name = path ++ name := by
  simp [join, component.not_absolute, slashed]

theorem getLast?_append_component {path name : OsText} (component : IsComponent name) :
    (path ++ name).getLast? ≠ some slash := by
  intro slashed
  rw [List.getLast?_append] at slashed
  cases last : name.getLast? with
  | none => exact component.nonempty (List.getLast?_eq_none_iff.mp last)
  | some byte =>
      rw [last, Option.some_or, Option.some.injEq] at slashed
      subst slashed
      exact component.noSlash (List.mem_of_getLast? last)

/-- A path that ends with a name is joined to the next one by a slash. -/
theorem plain_join (path : OsText) {name : OsText} (component : IsComponent name) :
    Plain (join path name) := by
  have plain (front : OsText) : Plain (front ++ name) :=
    ⟨by simp [component.nonempty], getLast?_append_component component⟩
  unfold join
  rw [component.not_absolute]
  split
  · next absolute => cases absolute
  · split
    · exact plain path
    · rw [List.append_cons]
      exact plain (path ++ [slash])

theorem isAbsolute_join {path name : OsText} (nonempty : path ≠ []) (component : IsComponent name) :
    isAbsolute (join path name) = isAbsolute path := by
  obtain ⟨first, rest, rfl⟩ := List.exists_cons_of_ne_nil nonempty
  unfold join
  rw [component.not_absolute]
  split
  · next absolute => cases absolute
  · split <;> simp [isAbsolute]

end Path

namespace FileTree

open TimeoutAudit.Path (IsComponent Plain slash)

/-! ## Segments -/

theorem pathBelow_concat (root : OsText) (names : List OsText) (name : OsText) :
    pathBelow root (names ++ [name]) = Path.join (pathBelow root names) name := by
  simp [pathBelow]

theorem segments_pathBelow_of_plain {root : OsText} (plain : Plain root) (names : List OsText)
    (components : ∀ name ∈ names, IsComponent name) :
    Path.segments (pathBelow root names) = Path.segments root ++ names := by
  induction names generalizing root with
  | nil => simp [pathBelow]
  | cons name rest ih =>
      have component := components name List.mem_cons_self
      have step : Path.segments (Path.join root name) = Path.segments root ++ [name] := by
        rw [Path.join_of_plain plain component, Path.segments_append_slash, component.segments_eq]
      have onward := ih (Path.plain_join root component) fun other member =>
        components other (List.mem_cons_of_mem _ member)
      rw [step, List.append_assoc] at onward
      exact onward

/-- **The names below a directory are segments of the path,** behind those of the directory
without an empty one at its end. -/
theorem exists_segments_pathBelow {root : OsText} (nonempty : root ≠ []) :
    ∃ front back, Path.segments root = front ++ back ∧ (∀ part ∈ back, part = []) ∧
      ∀ names, names ≠ [] → (∀ name ∈ names, IsComponent name) →
        Path.segments (pathBelow root names) = front ++ names := by
  by_cases slashed : root.getLast? = some slash
  · obtain ⟨before, rfl⟩ := List.getLast?_eq_some_iff.mp slashed
    refine ⟨Path.segments before, [[]], Path.segments_append_slash before [], by simp, ?_⟩
    intro names some components
    obtain ⟨name, rest, rfl⟩ := List.exists_cons_of_ne_nil some
    have component := components name List.mem_cons_self
    have onward := segments_pathBelow_of_plain
      (Path.plain_join (before ++ [slash]) component)
      rest fun other member => components other (List.mem_cons_of_mem _ member)
    rw [Path.join_of_slash slashed component, ← List.append_cons, Path.segments_append_slash,
      component.segments_eq] at onward
    rw [pathBelow, List.foldl_cons, Path.join_of_slash slashed component, ← List.append_cons]
    simpa [pathBelow] using onward
  · refine ⟨Path.segments root, [], by simp, by simp, fun names _ components => ?_⟩
    exact segments_pathBelow_of_plain ⟨nonempty, slashed⟩ names components

/-- **A path below a directory tells the names on the way.** -/
theorem pathBelow_injective {root : OsText} (nonempty : root ≠ []) {first second : List OsText}
    (firstComponents : ∀ name ∈ first, IsComponent name)
    (secondComponents : ∀ name ∈ second, IsComponent name)
    (same : pathBelow root first = pathBelow root second) : first = second := by
  obtain ⟨front, back, whole, empty, behind⟩ := exists_segments_pathBelow nonempty
  -- The directory itself has no names, only perhaps an empty segment.
  have none_of_root {names : List OsText} (components : ∀ name ∈ names, IsComponent name)
      (isRoot : pathBelow root names = root) : names = [] := by
    by_contra some
    have parts := behind names some components
    rw [isRoot, whole, List.append_cancel_left_eq] at parts
    obtain ⟨name, rest, rfl⟩ := List.exists_cons_of_ne_nil some
    exact (components name List.mem_cons_self).nonempty (empty name (by simp [parts]))
  by_cases noFirst : first = []
  · subst noFirst
    exact (none_of_root secondComponents same.symm).symm
  · by_cases noSecond : second = []
    · subst noSecond
      exact none_of_root firstComponents same
    · have parts := congrArg Path.segments same
      rwa [behind first noFirst firstComponents, behind second noSecond secondComponents,
        List.append_cancel_left_eq] at parts

/-! ## Names that can be names -/

/-- A name that can stand for an entry in a directory. -/
structure FileName (name : OsText) : Prop extends Named name where
  noSlash : slash ∉ name

theorem FileName.isComponent {name : OsText} (fileName : FileName name) : IsComponent name := by
  refine ⟨?_, fileName.noSlash⟩
  rintro rfl
  exact absurd fileName.moves (by decide)

instance (name : OsText) : Decidable (FileName name) :=
  decidable_of_iff (Path.isIdle name = false ∧ name ≠ Path.up ∧ name.length ≤ nameLimit ∧
      slash ∉ name)
    ⟨fun ⟨moves, down, short, noSlash⟩ => ⟨⟨moves, down, short⟩, noSlash⟩,
      fun fileName => ⟨fileName.moves, fileName.down, fileName.short, fileName.noSlash⟩⟩

/-- Every name in the tree can be one. -/
def WellNamed (tree : FileTree) : Prop :=
  ∀ location ∈ tree.root.locations, ∀ name ∈ location, FileName name

instance (tree : FileTree) : Decidable tree.WellNamed :=
  inferInstanceAs (Decidable (∀ location ∈ tree.root.locations, ∀ name ∈ location, FileName name))

variable {tree : FileTree}

theorem WellNamed.fileName (wellNamed : tree.WellNamed) {location : Location} {name : OsText}
    {shape : Shape} (seen : tree.view (location ++ [name]) = some shape) : FileName name :=
  wellNamed _ (mem_locations_of_view seen) name (by simp)

/-! ## Ends of paths -/

theorem view_dropLast {location : Location} (inside : tree.view location = some .directory) :
    tree.view location.dropLast = some .directory := by
  cases location using List.reverseRecOn with
  | nil => exact inside
  | append_singleton front name =>
      rw [List.dropLast_concat]
      exact view_of_below inside

/-- From something that is no link a course arrives at something that is none. -/
theorem Course.view_arrived_of_plain {current location : Location} {segments : List OsText}
    {progress : Progress} (course : Course tree true current segments progress)
    (reached : .arrived location = progress) {shape : Shape}
    (seen : tree.view current = some shape) (plain : ∀ target, shape ≠ .link target) :
    ∃ shape, tree.view location = some shape ∧ ∀ target, shape ≠ .link target := by
  induction course generalizing shape with
  | arrive =>
      cases reached
      exact ⟨shape, seen, plain⟩
  | stay inside _ _ ih => exact ih reached inside (by simp)
  | rise inside _ ih => exact ih reached (view_dropLast inside) (by simp)
  | enter _ _ found noLink _ ih => exact ih reached found noLink
  | miss => cases reached
  | link => cases reached
  | halt _ _ _ unfollowed => simp at unfollowed

/-- Where a course arrives, something stands that is no link. -/
theorem Course.view_arrived {current location : Location} {segments : List OsText}
    (course : Course tree true current segments (.arrived location)) (moved : segments ≠ []) :
    ∃ shape, tree.view location = some shape ∧ ∀ target, shape ≠ .link target := by
  cases course with
  | arrive => exact absurd rfl moved
  | stay inside _ onward => exact onward.view_arrived_of_plain rfl inside (by simp)
  | rise inside onward => exact onward.view_arrived_of_plain rfl (view_dropLast inside) (by simp)
  | enter _ _ found plain onward => exact onward.view_arrived_of_plain rfl found plain
  | halt _ _ _ unfollowed => simp at unfollowed

theorem Route.view_present {links : Nat} {current location : Location} {segments : List OsText}
    (route : Route tree true links current segments (.present location)) (moved : segments ≠ []) :
    ∃ shape, tree.view location = some shape ∧ ∀ target, shape ≠ .link target := by
  generalize ended : Spot.present location = spot at route
  induction route with
  | present course =>
      cases ended
      exact course.view_arrived moved
  | absent => cases ended
  | @jump _ _ _ _ _ target _ _ _ ih =>
      refine ih (fun none => ?_) ended
      obtain ⟨noTarget, -⟩ := List.append_eq_nil_iff.mp none
      exact Path.segments_ne_nil target noTarget

/-- **Where a path leads, something stands that is no link.** -/
theorem view_of_resolve {path : OsText} {location : Location}
    (leads : tree.resolve path = .ok location) :
    ∃ shape, tree.view location = some shape ∧ ∀ target, shape ≠ .link target := by
  refine (spot_eq_ok_iff.mp (resolve_eq_ok_iff.mp leads)).2.view_present fun none => ?_
  exact Path.segments_ne_nil path none

/-! ## One name more -/

theorem ne_empty_of_resolve {path : OsText} {location : Location}
    (leads : tree.resolve path = .ok location) : path ≠ [] :=
  (spot_eq_ok_iff.mp (resolve_eq_ok_iff.mp leads)).1

/-- A name behind a path is followed from where the path leads. -/
theorem spot_join {path name : OsText} {location : Location}
    (leads : tree.resolve path = .ok location) (component : IsComponent name) :
    ∃ left, tree.spot true (Path.join path name) = tree.follow true left location [name] := by
  obtain ⟨nonempty, route⟩ := spot_eq_ok_iff.mp (resolve_eq_ok_iff.mp leads)
  obtain ⟨front, back, whole, empty, behind⟩ := exists_segments_pathBelow nonempty
  have idle : Path.Idle back := fun part member => by rw [empty part member]; rfl
  rw [whole] at route
  obtain ⟨left, onward⟩ := route.follow_append idle
  have joined : Path.segments (Path.join path name) = front ++ [name] :=
    behind [name] (by simp) (by simpa using component)
  have sameStart : tree.startOf (Path.join path name) = tree.startOf path := by
    rw [startOf, startOf, Path.isAbsolute_join nonempty component]
  refine ⟨left, ?_⟩
  rw [spot, if_neg (by simpa using (Path.plain_join path component).nonempty), sameStart, joined,
    onward [name]]

/-- **A name that is no link leads to its entry.** -/
theorem resolve_join_plain {path name : OsText} {location : Location} {shape : Shape}
    (leads : tree.resolve path = .ok location) (fileName : FileName name)
    (found : tree.view (location ++ [name]) = some shape) (plain : ∀ target, shape ≠ .link target) :
    tree.resolve (Path.join path name) = .ok (location ++ [name]) := by
  obtain ⟨left, onward⟩ := spot_join leads fileName.isComponent
  rw [resolve_eq_ok_iff, onward]
  refine (Route.present ?_).follow_eq
  exact .enter (view_of_below found) fileName.toNamed found plain (.arrive _)

/-- **What a name leads to stands in the directory,** itself or as a link. -/
theorem isSome_view_of_resolve_join {path name : OsText} {location target : Location}
    (leads : tree.resolve path = .ok location) (component : IsComponent name)
    (moves : Path.isIdle name = false) (down : name ≠ Path.up)
    (reaches : tree.resolve (Path.join path name) = .ok target) :
    (tree.view (location ++ [name])).isSome = true := by
  obtain ⟨left, onward⟩ := spot_join leads component
  rw [resolve_eq_ok_iff, onward] at reaches
  cases seen : tree.view (location ++ [name]) with
  | some shape => rfl
  | none =>
      have nothing : Path.Idle [] := fun part member => absurd member List.not_mem_nil
      cases Route.of_follow reaches with
      | present course =>
          obtain ⟨slashed, same⟩ := course.of_absent_name seen moves down nothing
          cases same
      | jump course =>
          obtain ⟨slashed, same⟩ := course.of_absent_name seen moves down nothing
          cases same

end FileTree

end TimeoutAudit
