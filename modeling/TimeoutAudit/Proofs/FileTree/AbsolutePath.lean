import TimeoutAudit.Audit.Collect
import TimeoutAudit.Proofs.FileTree.Walk
import TimeoutAudit.Proofs.Path.Displayed

/-!
# Paths of locations

In a tree whose names can be names, the path of a location leads to it
(`FileTree.resolve_absolutePath`), and the names below a location are what the path of a file has
below the path of the location (`FileTree.below?_pathBelow`), also as both paths are shown
(`FileTree.below?_displayed`).
-/

set_option autoImplicit false

namespace TimeoutAudit

open TimeoutAudit.Path (IsComponent Moving displayed)

theorem Path.IsComponent.displayed {name : OsText} (component : IsComponent name) :
    IsComponent (displayed name) where
  nonempty := Path.displayed_eq_nil_iff.not.mpr component.nonempty
  noSlash := Path.slash_mem_displayed_iff.not.mpr component.noSlash

namespace FileTree

variable {tree : FileTree} {location : Location}

/-! ## Segments -/

theorem absolutePath_of_ne_nil (some : location ≠ []) :
    absolutePath location = Path.joined ([] :: location) := by
  obtain ⟨name, rest, rfl⟩ := List.exists_cons_of_ne_nil some
  rw [Path.joined_cons_cons, absolutePath, List.nil_append]

theorem segments_absolutePath (some : location ≠ [])
    (components : ∀ name ∈ location, IsComponent name) :
    Path.segments (absolutePath location) = [] :: location := by
  rw [absolutePath_of_ne_nil some, Path.segments_joined (List.cons_ne_nil _ _)]
  intro part member
  rcases List.mem_cons.mp member with rfl | inside
  · exact List.not_mem_nil
  · exact (components part inside).noSlash

theorem absolutePath_concat (some : location ≠ []) (name : OsText) :
    absolutePath (location ++ [name]) = absolutePath location ++ Path.slash :: name := by
  have joined (first : OsText) (rest : List OsText) :
      Path.joined (first :: rest ++ [name]) =
        Path.joined (first :: rest) ++ Path.slash :: name := by
    induction rest generalizing first with
    | nil =>
        rw [List.cons_append, List.nil_append, Path.joined_cons_cons, Path.joined_singleton,
          Path.joined_singleton]
    | cons second rest ih =>
        rw [List.cons_append, List.cons_append, Path.joined_cons_cons, ← List.cons_append,
          ih second, Path.joined_cons_cons, List.append_assoc, List.cons_append]
  rw [absolutePath_of_ne_nil some, absolutePath_of_ne_nil (by simp), ← joined]
  rfl

/-- One name below the path of a location is the path of the location one name further. -/
theorem join_absolutePath {name : OsText} (components : ∀ name ∈ location, IsComponent name)
    (component : IsComponent name) :
    Path.join (absolutePath location) name = absolutePath (location ++ [name]) := by
  cases location using List.reverseRecOn with
  | nil => exact (Path.join_of_slash rfl component).trans (by simp [absolutePath, Path.joined])
  | append_singleton front last =>
      have isComponent := components last (by simp)
      obtain ⟨before, ends⟩ : ∃ before, absolutePath (front ++ [last]) = before ++ last := by
        by_cases none : front = []
        · exact ⟨[Path.slash], by simp [none, absolutePath]⟩
        · exact ⟨_, (absolutePath_concat none last).trans (List.append_cons ..)⟩
      have plain : Path.Plain (absolutePath (front ++ [last])) := by
        refine ⟨List.cons_ne_nil _ _, ?_⟩
        rw [ends]
        exact Path.getLast?_append_component isComponent
      have further := absolutePath_concat (show front ++ [last] ≠ [] by simp) name
      rw [Path.join_of_plain plain component, further]

theorem pathBelow_absolutePath {names : List OsText}
    (components : ∀ name ∈ location ++ names, IsComponent name) :
    pathBelow (absolutePath location) names = absolutePath (location ++ names) := by
  induction names generalizing location with
  | nil => rw [List.append_nil]; rfl
  | cons name rest ih =>
      have before : ∀ part ∈ location, IsComponent part := fun part member =>
        components part (List.mem_append_left _ member)
      have whole : location ++ name :: rest = (location ++ [name]) ++ rest := by simp
      rw [whole] at components ⊢
      rw [← ih components]
      exact congrArg (fun path => pathBelow path rest)
        (join_absolutePath before (components name (by simp)))

/-- The steps of the path of a location are its names. -/
theorem steps_absolutePath (components : ∀ name ∈ location, IsComponent name)
    (moving : Moving location) : Path.steps (absolutePath location) = location := by
  by_cases none : location = []
  · subst none
    rfl
  · rw [Path.steps, segments_absolutePath none components, List.filter_cons_of_neg (by decide),
      List.filter_eq_self.mpr fun part member => by simp [moving part member]]

theorem isAbsolute_absolutePath (location : Location) :
    Path.isAbsolute (absolutePath location) = true := by
  simp [Path.isAbsolute, absolutePath]

/-- **The path of a file below a location** has the names on the way below the location. -/
theorem below?_pathBelow {names : List OsText}
    (components : ∀ name ∈ location ++ names, IsComponent name)
    (moving : Moving (location ++ names)) (some : names ≠ []) :
    Path.below? (absolutePath location) (pathBelow (absolutePath location) names) =
      .some (Audit.relativePath names) := by
  have above : Moving location := fun part member => moving part (List.mem_append_left _ member)
  have below : Moving names := fun part member => moving part (List.mem_append_right _ member)
  have aboveSteps := steps_absolutePath
    (fun part member => components part (List.mem_append_left _ member)) above
  have parts : Path.segments (absolutePath (location ++ names)) =
      [] :: (Path.steps (absolutePath location) ++ (names ++ [])) := by
    rw [segments_absolutePath (by simp [some]) components, aboveSteps, List.append_nil]
  rw [pathBelow_absolutePath components]
  exact Path.below?_eq_some (isAbsolute_absolutePath _) (isAbsolute_absolutePath _) parts below
    (by simp [Path.Idle])

theorem displayed_absolutePath (location : Location) :
    displayed (absolutePath location) = absolutePath (location.map displayed) := by
  rw [absolutePath, ← List.nil_append (Path.slash :: _), Path.displayed_append_slash,
    Path.displayed_joined]
  rfl

/-- What is shown for the path of a file has the names as they are shown below what is shown for the
location. -/
theorem below?_displayed {names : List OsText}
    (components : ∀ name ∈ location ++ names, IsComponent name)
    (moving : Moving (location ++ names)) (some : names ≠ []) :
    Path.below? (displayed (absolutePath location))
        (displayed (pathBelow (absolutePath location) names)) =
      .some (displayed (Audit.relativePath names)) := by
  have shown : ∀ name ∈ location.map displayed ++ names.map displayed, IsComponent name := by
    rw [← List.map_append, List.forall_mem_map]
    exact fun name member => (components name member).displayed
  rw [pathBelow_absolutePath components, displayed_absolutePath, displayed_absolutePath,
    List.map_append, ← pathBelow_absolutePath shown, below?_pathBelow shown, Audit.relativePath,
    Audit.relativePath, Path.displayed_joined]
  · rw [← List.map_append]
    exact moving.displayed
  · simpa using some

/-! ## Leading to a location -/

/-- Names lead down to what stands below a directory. -/
theorem course_down {front names : Location} {shape : Shape}
    (fileNames : ∀ name ∈ names, FileName name) (seen : tree.view (front ++ names) = some shape)
    (plain : ∀ target, shape ≠ .link target) :
    Course tree true front names (.arrived (front ++ names)) := by
  induction names generalizing front with
  | nil =>
      rw [List.append_nil]
      exact .arrive front
  | cons name rest ih =>
      have whole : front ++ name :: rest = (front ++ [name]) ++ rest := by simp
      rw [whole] at seen ⊢
      have onward := ih (fun other member => fileNames other (List.mem_cons_of_mem _ member)) seen
      have named := (fileNames name List.mem_cons_self).toNamed
      cases rest with
      | nil =>
          rw [List.append_nil] at seen
          exact .enter (view_of_below seen) named seen plain onward
      | cons second rest =>
          have inside := view_of_below seen
          exact .enter (view_of_below inside) named inside (by simp) onward

/-- **The path of a directory leads to it.** -/
theorem resolve_absolutePath (wellNamed : tree.WellNamed)
    (inside : tree.view location = some .directory) :
    tree.resolve (absolutePath location) = .ok location := by
  have fileNames := wellNamed location (mem_locations_of_view inside)
  have top : tree.view [] = .some .directory := by
    cases location with
    | nil => exact inside
    | cons name rest => exact view_of_below (show tree.view ([] ++ name :: rest) = _ from inside)
  have start : tree.startOf (absolutePath location) = [] := by
    rw [startOf, if_pos (isAbsolute_absolutePath location)]
  rw [resolve_eq_ok_iff, spot_eq_ok_iff, start]
  refine ⟨by simp [absolutePath], .present ?_⟩
  by_cases none : location = []
  · subst none
    exact .stay top rfl (.stay top rfl (.arrive []))
  · rw [segments_absolutePath none fun name member => (fileNames name member).isComponent]
    exact .stay top rfl (course_down fileNames inside (by simp))

end FileTree

end TimeoutAudit
