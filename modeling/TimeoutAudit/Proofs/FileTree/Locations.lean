import Mathlib.Data.List.Sort
import TimeoutAudit.Proofs.FileTree.View

/-!
# The locations of a file tree

A file tree is finite: its locations can be listed, as many as it has entries
(`Entry.length_locations`), and nothing stands at any other location
(`Entry.mem_locations_of_at?`).

The names in a directory are listed in order and without repetition
(`FileTree.names_pairwise`), and they are those under which something stands
(`FileTree.mem_names_iff`).  So they are a matter of what stands where, and not of the order in
which the entries were created (`FileTree.SameContents.names_eq`).
-/

set_option autoImplicit false

namespace TimeoutAudit

namespace Entry

mutual
/-- The locations in and below an entry, seen from it. -/
def locations : Entry → List Location
  | .file _ => [[]]
  | .link _ => [[]]
  | .directory entries => [] :: locationsOfAll entries

/-- The locations in and below several entries, each behind its name. -/
def locationsOfAll : List (OsText × Entry) → List Location
  | [] => []
  | (name, entry) :: rest => entry.locations.map (name :: ·) ++ locationsOfAll rest
end

mutual
theorem length_locations : ∀ entry : Entry, entry.locations.length = entry.size
  | .file _ => by simp [locations, size]
  | .link _ => by simp [locations, size]
  | .directory entries => by
      simp only [locations, size, List.length_cons, length_locationsOfAll entries]
      omega

theorem length_locationsOfAll : ∀ entries : List (OsText × Entry),
    (locationsOfAll entries).length = sizeOfAll entries
  | [] => by simp [locationsOfAll, sizeOfAll]
  | (_, entry) :: rest => by
      simp only [locationsOfAll, sizeOfAll, List.length_append, List.length_map,
        length_locations entry, length_locationsOfAll rest]
end

theorem nil_mem_locations (entry : Entry) : [] ∈ entry.locations := by
  cases entry <;> simp [locations]

theorem cons_mem_locationsOfAll {entries : List (OsText × Entry)} {name : OsText} {child : Entry}
    {rest : Location} (found : entries.lookup name = some child)
    (below : rest ∈ child.locations) : name :: rest ∈ locationsOfAll entries := by
  induction entries with
  | nil => simp at found
  | cons entry others ih =>
      obtain ⟨other, first⟩ := entry
      rw [lookup_cons_eq] at found
      rw [locationsOfAll, List.mem_append]
      by_cases same : name = other
      · rw [if_pos same, Option.some.injEq] at found
        subst found same
        exact .inl (List.mem_map_of_mem below)
      · rw [if_neg same] at found
        exact .inr (ih found)

/-- **Whatever stands in a tree stands at one of its locations.** -/
theorem mem_locations_of_at? {entry found : Entry} {location : Location}
    (stands : entry.at? location = some found) : location ∈ entry.locations := by
  induction location generalizing entry with
  | nil => exact nil_mem_locations entry
  | cons name rest ih =>
      have seen : entry.view (name :: rest) = some found.shape := by rw [view, stands]; rfl
      obtain ⟨entries, child, rfl, lookup⟩ := exists_child_of_view seen
      rw [at?, child?, lookup] at stands
      rw [locations]
      exact List.mem_cons_of_mem _ (cons_mem_locationsOfAll lookup (ih stands))

/-- An entry is smaller than the directory that it is in. -/
theorem size_le_of_lookup {entries : List (OsText × Entry)} {name : OsText} {child : Entry}
    (found : entries.lookup name = some child) : child.size ≤ sizeOfAll entries := by
  induction entries with
  | nil => simp at found
  | cons entry others ih =>
      obtain ⟨other, first⟩ := entry
      rw [lookup_cons_eq] at found
      rw [sizeOfAll]
      by_cases same : name = other
      · rw [if_pos same, Option.some.injEq] at found
        subst found
        omega
      · rw [if_neg same] at found
        have smaller := ih found
        omega

theorem size_le_of_at? {entry found : Entry} {location : Location}
    (stands : entry.at? location = some found) : found.size ≤ entry.size := by
  induction location generalizing entry with
  | nil =>
      obtain rfl : entry = found := Option.some.inj stands
      exact Nat.le_refl _
  | cons name rest ih =>
      have seen : entry.view (name :: rest) = some found.shape := by rw [view, stands]; rfl
      obtain ⟨entries, child, rfl, lookup⟩ := exists_child_of_view seen
      rw [at?, child?, lookup] at stands
      have smaller := size_le_of_lookup lookup
      have deeper := ih stands
      rw [size]
      omega

end Entry

namespace FileTree

/-! ## Names in a directory -/

theorem nodup_eraseDups (names : List OsText) : names.eraseDups.Nodup := by
  cases names with
  | nil => simp
  | cons name rest =>
      rw [List.eraseDups_cons, List.nodup_cons]
      refine ⟨fun again => ?_, nodup_eraseDups _⟩
      rw [List.mem_eraseDups] at again
      simp at again
termination_by names.length
decreasing_by
  have shorter := List.length_filter_le (fun other => !other == name) rest
  simp only [List.length_cons]
  omega

/-- **The names in a directory are listed in order,** each once. -/
theorem names_pairwise (tree : FileTree) (location : Location) :
    (tree.names location).Pairwise (· < ·) := by
  unfold names
  split
  · next entries _ =>
      have ordered := List.pairwise_mergeSort' (· ≤ ·) (entries.map Prod.fst).eraseDups
      have once := (List.mergeSort_perm (entries.map Prod.fst).eraseDups
        fun first second => decide (first ≤ second)).nodup_iff.mpr (nodup_eraseDups _)
      exact (ordered.and once).imp fun ⟨le, ne⟩ => Std.lt_of_le_of_ne le ne
  · exact .nil

theorem mem_map_fst_iff (entries : List (OsText × Entry)) (name : OsText) :
    name ∈ entries.map Prod.fst ↔ (entries.lookup name).isSome = true := by
  induction entries with
  | nil => simp
  | cons entry rest ih =>
      obtain ⟨other, first⟩ := entry
      rw [Entry.lookup_cons_eq]
      by_cases same : name = other
      · simp [same]
      · simp [same, ih]

/-- **The names in a directory are those under which something stands.** -/
theorem mem_names_iff {tree : FileTree} {location : Location} {name : OsText} :
    name ∈ tree.names location ↔ (tree.view (location ++ [name])).isSome = true := by
  unfold names
  split
  · next entries found =>
      rw [List.mem_mergeSort, List.mem_eraseDups, mem_map_fst_iff, view_concat found,
        Option.isSome_map]
  · next other =>
      have notDirectory : tree.view location ≠ some .directory := by
        intro isDirectory
        obtain ⟨entries, found⟩ := view_eq_directory_iff.mp isDirectory
        exact other entries found
      rw [view_below_of_ne_directory notDirectory]
      simp

/-! ## Trees with the same contents -/

/-- The same stands at every location, and the working directory is the same. -/
structure SameContents (tree other : FileTree) : Prop where
  view : ∀ location, tree.view location = other.view location
  here : tree.here = other.here

theorem mem_locations_of_view {tree : FileTree} {location : Location} {shape : Shape}
    (seen : tree.view location = some shape) : location ∈ tree.root.locations := by
  rw [view_eq, Option.map_eq_some_iff] at seen
  obtain ⟨entry, found, -⟩ := seen
  exact Entry.mem_locations_of_at? found

/-- Contents are compared location by location. -/
theorem sameContents_iff {tree other : FileTree} :
    SameContents tree other ↔
      (∀ location ∈ tree.root.locations ++ other.root.locations,
        tree.view location = other.view location) ∧ tree.here = other.here := by
  constructor
  · intro same
    exact ⟨fun location _ => same.view location, same.here⟩
  · rintro ⟨listed, here⟩
    refine ⟨fun location => ?_, here⟩
    cases first : tree.view location with
    | some shape =>
        rw [← first]
        exact listed location (List.mem_append_left _ (mem_locations_of_view first))
    | none =>
        cases second : other.view location with
        | none => rfl
        | some shape =>
            rw [← first, ← second]
            exact listed location (List.mem_append_right _ (mem_locations_of_view second))

instance (tree other : FileTree) : Decidable (SameContents tree other) :=
  decidable_of_iff _ sameContents_iff.symm

theorem SameContents.names_eq {tree other : FileTree} (same : SameContents tree other)
    (location : Location) : tree.names location = other.names location := by
  refine List.Pairwise.eq_of_mem_iff (tree.names_pairwise location)
    (other.names_pairwise location) fun name => ?_
  rw [mem_names_iff, mem_names_iff, same.view]

end FileTree

end TimeoutAudit
