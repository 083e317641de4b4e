import Mathlib.Data.List.Infix
import Mathlib.Data.List.Nodup
import TimeoutAudit.Proofs.FileTree.WalkOrder
import TimeoutAudit.Proofs.Path.Extension
import TimeoutAudit.Proofs.Schedule

/-!
# The files that are audited

Below a directory, the files that are audited are described by the names that lead to them
(`Audit.Listed`): no name is a text that starts with a dot, every name before the last leads to a
directory, none of these is a link back to a directory above it, and the last one leads to a file
with the right extension that no pattern excludes.  `Audit.collect_files_iff` says that a collection
holds these files and no others, and that the walk behind it is never cut short.

Two things are needed for this that one might not think of (`Audit.collect_files_strays`).  A name
that starts with a dot is passed over only if it is a text.  And a path leads somewhere only if it
does so within the number of links that are followed for one path.

`Audit.collect_files_ordered` says in which order files are collected: name by name, each compared
by its bytes.  Nothing else of the tree matters than what stands where.
-/

set_option autoImplicit false

namespace TimeoutAudit.Audit

open FileTree (pathBelow isHidden Encounter Opened Passable SameContents)
open TimeoutAudit.Path (IsComponent)

variable {settings : Settings} {tree : FileTree} {root : OsText} {exclusion : PathFilter}
  {names : List OsText}

/-! ## Collections and walks -/

/-- Names of a file that is audited once a walk has met it. -/
def isChosen (exclusion : PathFilter) (names : List OsText) : Bool :=
  isSource names && !exclusion.matchesPath (relativePath names)

theorem filterMap_selected? (encounters : List Encounter) :
    encounters.filterMap (selected? exclusion root) =
      ((encounters.filterMap Encounter.file?).filter (isChosen exclusion)).map
        (pathBelow root) := by
  rw [List.filter_filterMap, List.map_filterMap]
  congr 1
  funext encounter
  cases encounter with
  | unreadable error => rfl
  | file names =>
      show (if isChosen exclusion names then some (pathBelow root names) else none) =
        ((some names).filter (isChosen exclusion)).map (pathBelow root)
      by_cases chosen : isChosen exclusion names = true <;> simp [chosen]

/-- What is collected depends on where a path leads and on what stands there. -/
theorem collect_eq (settings : Settings) (tree : FileTree) (root : OsText) :
    collect settings tree root =
      match tree.resolve root with
      | .error reason => .error (.inaccessible root reason)
      | .ok location =>
        if tree.view location = some .directory then
          match settings.exclusion with
          | .error defect => .error (.invalid defect)
          | .ok exclusion =>
            .ok ⟨(tree.walk root location).filterMap (selected? exclusion root),
              (tree.walk root location).filterMap (encounterLog? exclusion root)⟩
        else .ok ⟨[root], []⟩ := by
  unfold collect
  cases tree.resolve root with
  | error reason => rfl
  | ok location =>
      by_cases inside : tree.view location = some .directory
      · obtain ⟨entries, found⟩ := FileTree.view_eq_directory_iff.mp inside
        cases settings.exclusion <;> simp only [found, inside, if_true]
      · simp only [inside, if_false]
        split
        · next entries found =>
            exact absurd (FileTree.view_eq_directory_iff.mpr ⟨entries, found⟩) inside
        · rfl

/-- The files below a directory are those that a walk meets and that are chosen. -/
theorem collect_of_directory {location : Location} (leads : tree.resolve root = .ok location)
    (inside : tree.view location = some .directory)
    (compiles : settings.exclusion = .ok exclusion) :
    ∃ collection, collect settings tree root = .ok collection ∧ collection.files =
      (((tree.walk root location).filterMap Encounter.file?).filter (isChosen exclusion)).map
        (pathBelow root) := by
  rw [collect_eq, leads]
  simp only [inside, compiles, if_true]
  exact ⟨_, rfl, filterMap_selected? _⟩

/-! ## Names that are listed -/

/-- A name is hidden if it is a text that starts with a dot. -/
theorem isHidden_iff {name : OsText} :
    isHidden name = true ↔ ∃ rest : String, name = Text.bytes ("." ++ rest) := by
  have starts (text : String) : text.toList.head? = some '.' ↔ ∃ rest, text = "." ++ rest := by
    rw [List.head?_eq_some_iff]
    constructor
    · rintro ⟨letters, same⟩
      exact ⟨String.ofList letters, by rw [← String.toList_inj, same]; simp⟩
    · rintro ⟨rest, rfl⟩
      exact ⟨rest.toList, by simp⟩
  unfold isHidden
  cases reading : name.text? with
  | none =>
      refine ⟨nofun, ?_⟩
      rintro ⟨rest, same⟩
      rw [OsText.text?_eq_some_iff.mpr same] at reading
      cases reading
  | some text =>
      obtain rfl := OsText.text?_eq_some_iff.mp reading
      rw [Option.map_some, Option.getD_some, beq_iff_eq, starts]
      simp only [Text.bytes_inj]

/-- Names that lead from a directory to a file that is audited. -/
structure Listed (exclusion : PathFilter) (tree : FileTree) (root : OsText)
    (names : List OsText) : Prop where
  /-- No name is a text that starts with a dot. -/
  visible : ∀ name ∈ names, ∀ rest : String, name ≠ Text.bytes ("." ++ rest)
  /-- Every path before the last one leads to a directory. -/
  inside : ∀ front, front <+: names → front ≠ names → tree.isDirectory (pathBelow root front) = true
  /-- A link on the way does not lead to a directory above it. -/
  acyclic : ∀ front name, front ++ [name] <+: names → front ++ [name] ≠ names →
    tree.IsLink (pathBelow root front) name → ∀ above, above <+: front →
      tree.resolve (pathBelow root (front ++ [name])) ≠ tree.resolve (pathBelow root above)
  isFile : tree.isFile (pathBelow root names) = true
  extension : ∃ stem, stem ≠ [] ∧ names.getLast? = some (stem ++ Text.bytes ".php")
  kept : exclusion.matchesPath (relativePath names) = false

theorem isSource_iff :
    isSource names = true ↔
      ∃ stem, stem ≠ [] ∧ names.getLast? = some (stem ++ Text.bytes ".php") := by
  have suffix : Text.bytes ".php" = Path.dot :: Text.bytes extension := by decide
  unfold isSource
  cases names.getLast? with
  | none => simp
  | some name =>
      simp only [Option.bind_some, beq_iff_eq, Option.bind_eq_some_iff,
        OsText.text?_eq_some_iff, Path.extensionOf?_eq_some_iff, suffix, Option.some.injEq]
      constructor
      · rintro ⟨behind, ⟨-, -, stem, nonempty, rfl⟩, rfl⟩
        exact ⟨stem, nonempty, rfl⟩
      · rintro ⟨stem, nonempty, rfl⟩
        refine ⟨_, ⟨fun isUp => ?_, by decide, stem, nonempty, rfl⟩, rfl⟩
        have last := congrArg List.getLast? isUp
        rw [← suffix, List.getLast?_append,
          show (Text.bytes ".php").getLast? = some 0x70 by decide, Option.some_or] at last
        exact absurd last (by decide)

theorem not_isHidden_iff {name : OsText} :
    isHidden name = false ↔ ∀ rest : String, name ≠ Text.bytes ("." ++ rest) := by
  rw [← Bool.not_eq_true, isHidden_iff, not_exists]

/-- Whether names are listed is seen from their beginnings. -/
theorem listed_iff_inits :
    Listed exclusion tree root names ↔
      (∀ name ∈ names, isHidden name = false) ∧
      (∀ front ∈ names.inits, front ≠ names → tree.isDirectory (pathBelow root front) = true) ∧
      (∀ front ∈ names.inits, front ≠ names → ∀ name ∈ front.getLast?,
        tree.IsLink (pathBelow root front.dropLast) name → ∀ above ∈ front.dropLast.inits,
          tree.resolve (pathBelow root front) ≠ tree.resolve (pathBelow root above)) ∧
      tree.isFile (pathBelow root names) = true ∧ isSource names = true ∧
      exclusion.matchesPath (relativePath names) = false := by
  simp only [List.mem_inits, not_isHidden_iff, isSource_iff]
  constructor
  · rintro ⟨visible, inside, acyclic, isFile, extension, kept⟩
    refine ⟨visible, inside, fun front before different name last => ?_, isFile, extension, kept⟩
    have split := List.dropLast_append_getLast? name last
    rw [← split] at before different
    rw [← congrArg (pathBelow root) split]
    exact acyclic front.dropLast name before different
  · rintro ⟨visible, inside, acyclic, isFile, extension, kept⟩
    refine ⟨visible, inside, fun front name before different => ?_, isFile, extension, kept⟩
    simpa using acyclic (front ++ [name]) before different name (by simp)

instance (exclusion : PathFilter) (tree : FileTree) (root : OsText) (names : List OsText) :
    Decidable (Listed exclusion tree root names) :=
  decidable_of_iff _ listed_iff_inits.symm

/-- Names are listed if they are chosen, the last one is visible and leads to a file, and those
before it can be followed. -/
theorem listed_concat_iff {parents : List OsText} {last : OsText} :
    Listed exclusion tree root (parents ++ [last]) ↔
      (Passable tree root parents ∧ isHidden last = false ∧
        tree.isFile (pathBelow root (parents ++ [last])) = true) ∧
      isChosen exclusion (parents ++ [last]) = true := by
  have proper {front : List OsText} :
      front <+: parents ++ [last] ∧ front ≠ parents ++ [last] ↔ front <+: parents := by
    rw [List.prefix_concat_iff]
    constructor
    · rintro ⟨whole | before, different⟩
      · exact absurd whole different
      · exact before
    · intro before
      refine ⟨.inr before, ?_⟩
      rintro rfl
      have shorter := before.length_le
      rw [List.length_append, List.length_singleton] at shorter
      omega
  rw [isChosen, Bool.and_eq_true, isSource_iff, Bool.not_eq_true']
  constructor
  · intro listed
    refine ⟨⟨⟨fun name member => ?_, fun front before => ?_, fun front name before => ?_⟩, ?_,
      listed.isFile⟩, listed.extension, listed.kept⟩
    · exact not_isHidden_iff.mpr (listed.visible name (List.mem_append_left _ member))
    · exact listed.inside front (proper.mpr before).1 (proper.mpr before).2
    · exact listed.acyclic front name (proper.mpr before).1 (proper.mpr before).2
    · exact not_isHidden_iff.mpr (listed.visible last (by simp))
  · rintro ⟨⟨passable, visible, isFile⟩, extension, kept⟩
    refine ⟨fun name member => ?_, fun front before different => ?_,
      fun front name before different => ?_, isFile, extension, kept⟩
    · rcases List.mem_append.mp member with earlier | isLast
      · exact not_isHidden_iff.mp (passable.visible name earlier)
      · rw [List.mem_singleton.mp isLast]
        exact not_isHidden_iff.mp visible
    · exact passable.inside front (proper.mp ⟨before, different⟩)
    · exact passable.acyclic front name (proper.mp ⟨before, different⟩)

/-- The names that a walk meets and that are chosen are those that are listed. -/
theorem mem_filter_isChosen_iff {location : Location} (wellNamed : tree.WellNamed)
    (leads : tree.resolve root = .ok location) (inside : tree.view location = some .directory) :
    names ∈ ((tree.walk root location).filterMap Encounter.file?).filter (isChosen exclusion) ↔
      (∀ name ∈ names, IsComponent name) ∧ Listed exclusion tree root names := by
  rw [List.mem_filter, FileTree.mem_filterMap_file?_iff,
    FileTree.file_mem_walk_iff wellNamed leads inside]
  constructor
  · rintro ⟨⟨components, parents, last, rfl, met⟩, chosen⟩
    exact ⟨components, listed_concat_iff.mpr ⟨met, chosen⟩⟩
  · rintro ⟨components, listed⟩
    cases names using List.reverseRecOn with
    | nil =>
        obtain ⟨stem, -, none⟩ := listed.extension
        cases none
    | append_singleton parents last =>
        obtain ⟨met, chosen⟩ := listed_concat_iff.mp listed
        exact ⟨⟨components, parents, last, rfl, met⟩, chosen⟩

/-- A path below a directory is collected if its names are listed. -/
theorem pathBelow_mem_files_iff {collection : Collection} (wellNamed : tree.WellNamed)
    (isDirectory : tree.isDirectory root = true) (compiles : settings.exclusion = .ok exclusion)
    (collected : collect settings tree root = .ok collection)
    (components : ∀ name ∈ names, IsComponent name) :
    pathBelow root names ∈ collection.files ↔ Listed exclusion tree root names := by
  obtain ⟨location, leads, inside⟩ := FileTree.isDirectory_iff.mp isDirectory
  obtain ⟨same, sameCollected, files⟩ := collect_of_directory leads inside compiles
  obtain rfl : collection = same := Except.ok.inj (collected.symm.trans sameCollected)
  rw [files, List.mem_map]
  constructor
  · rintro ⟨others, chosen, same⟩
    obtain ⟨otherComponents, listed⟩ := (mem_filter_isChosen_iff wellNamed leads inside).mp chosen
    rwa [← FileTree.pathBelow_injective (FileTree.ne_empty_of_resolve leads) otherComponents
      components same]
  · intro listed
    exact ⟨names, (mem_filter_isChosen_iff wellNamed leads inside).mpr ⟨components, listed⟩, rfl⟩

/-- A directory with a link to itself, one that leads nowhere, and one to its neighbour, which
links back. -/
def tangled : FileTree where
  root := .directory [
    ("p", .directory [("a.php", .file []), ("loop", .link "."), ("gone.php", .link "nowhere"),
      ("out", .link "../q")]),
    ("q", .directory [("b.php", .file []), ("back", .link "../p")])]
  here := []

/-- A name that starts with a dot and is no text. -/
def dotted : OsText := Text.bytes ".caf" ++ 0xE9 :: Text.bytes ".php"

/-- A directory with a file of this name, and with a link from which the last of a row of links
leads to a file. -/
def strays : FileTree where
  root := .directory (("p", .directory [(dotted, .file []), ("a.php", .link [Path.slash, 1])]) ::
    ([UInt8.ofNat (FileTree.linkLimit + 1)], .file []) ::
      (List.range FileTree.linkLimit).map fun step =>
        ([UInt8.ofNat (step + 1)], .link [Path.slash, UInt8.ofNat (step + 2)]))
  here := []

/-- The order of a collection: the first names that differ decide, by their bytes. -/
def Precedes : List OsText → List OsText → Prop := List.Lex fun first second => first < second

theorem Precedes.ne {first second : List OsText} (before : Precedes first second) :
    first ≠ second := by
  refine (List.Lex.imp (fun one other less => ?_) first second before).to_ne
  rintro rfl
  exact List.lt_irrefl _ less

/-- The files that a walk meets are in order. -/
theorem walk_files_pairwise (tree : FileTree) (root : OsText) (location : Location) :
    ((tree.walk root location).filterMap Encounter.file?).Pairwise Precedes :=
  FileTree.walkWithin_files_pairwise _ _ _

/-- What is collected below a directory is given by names in order. -/
theorem collection_names (wellNamed : tree.WellNamed) (isDirectory : tree.isDirectory root = true)
    (compiles : settings.exclusion = .ok exclusion) :
    ∃ (collection : Collection) (paths : List (List OsText)),
      collect settings tree root = .ok collection ∧
      collection.files = paths.map (pathBelow root) ∧
      (∀ names ∈ paths, (∀ name ∈ names, IsComponent name) ∧ Listed exclusion tree root names) ∧
      paths.Pairwise Precedes := by
  obtain ⟨location, leads, inside⟩ := FileTree.isDirectory_iff.mp isDirectory
  obtain ⟨collection, collected, files⟩ := collect_of_directory leads inside compiles
  exact ⟨collection, _, collected, files,
    fun names chosen => (mem_filter_isChosen_iff wellNamed leads inside).mp chosen,
    (walk_files_pairwise tree root location).filter _⟩

/-- Paths in order are paths without repetition. -/
theorem nodup_map_pathBelow {paths : List (List OsText)} (nonempty : root ≠ [])
    (components : ∀ names ∈ paths, ∀ name ∈ names, IsComponent name)
    (ordered : paths.Pairwise Precedes) : (paths.map (pathBelow root)).Nodup := by
  have once : paths.Nodup := ordered.imp Precedes.ne
  refine once.map_on fun first firstMember second secondMember same => ?_
  exact FileTree.pathBelow_injective nonempty (components first firstMember)
    (components second secondMember) same

/-! ## Trees with the same contents -/

section SameContents

variable {other : FileTree} (same : SameContents tree other)

include same

theorem parseFile_of_sameContents (path : OsText) : parseFile tree path = parseFile other path := by
  unfold parseFile
  rw [same.read_eq]

theorem collect_of_sameContents (settings : Settings) (root : OsText) :
    collect settings tree root = collect settings other root := by
  simp only [collect_eq, same.resolve_eq, same.view, same.walk_eq]

theorem auditFiles_of_sameContents (settings : Settings) (jobs : Nat) (paths : List OsText) :
    auditFiles settings jobs tree paths = auditFiles settings jobs other paths := by
  have alike : apart tree settings.detectors paths = apart other settings.detectors paths := by
    unfold apart auditFile
    simp only [parseFile_of_sameContents same]
  simp only [auditFiles, reports_eq_apart, alike]

/-- An audit sees what stands where, and nothing else. -/
theorem audit_of_sameContents (settings : Settings) (jobs : Nat) (root : OsText) :
    audit settings jobs tree root = audit settings jobs other root := by
  unfold audit
  simp only [collect_of_sameContents same, auditFiles_of_sameContents same]

end SameContents

/-- **A collection is in order.**  Below a directory the files are listed name by name, each
compared by its bytes, so that none is listed twice; and a tree with the same contents has the
same collection and gives the same audit. -/
theorem collect_files_ordered (settings : Settings) (tree : FileTree) (root : OsText)
    (exclusion : PathFilter) (wellNamed : tree.WellNamed)
    (isDirectory : tree.isDirectory root = true)
    (compiles : settings.exclusion = .ok exclusion) :
    ∃ (collection : Collection) (paths : List (List OsText)),
      collect settings tree root = .ok collection ∧
      collection.files = paths.map (pathBelow root) ∧
      (∀ names ∈ paths, ∀ name ∈ names, IsComponent name) ∧
      paths.Pairwise Precedes ∧ collection.files.Nodup ∧
      ∀ other, SameContents tree other →
        collect settings other root = .ok collection ∧
        ∀ jobs, ∃ run, audit settings jobs tree root = .ok run ∧
          audit settings jobs other root = .ok run := by
  obtain ⟨collection, paths, collected, files, listed, ordered⟩ :=
    collection_names wellNamed isDirectory compiles
  obtain ⟨location, leads, -⟩ := FileTree.isDirectory_iff.mp isDirectory
  have components : ∀ names ∈ paths, ∀ name ∈ names, IsComponent name :=
    fun names member => (listed names member).1
  refine ⟨collection, paths, collected, files, components, ordered, ?_, ?_⟩
  · rw [files]
    exact nodup_map_pathBelow (FileTree.ne_empty_of_resolve leads) components ordered
  · intro other same
    refine ⟨(collect_of_sameContents same settings root).symm.trans collected, fun jobs => ?_⟩
    rw [← audit_of_sameContents same, audit, collected]
    exact ⟨_, rfl, rfl⟩

/-- A directory `a` beside a file whose name goes on with a dash. -/
def dashed : FileTree where
  root := .directory [("p", .directory [("a-b.php", .file []),
    ("a", .directory [("y.php", .file []), ("x.php", .file [])])])]
  here := []

/-- What is in the directory comes first, although the dash is smaller than the slash; and it
does so whichever was created first. -/
theorem collect_files_ordered_dashed :
    ∃ (collection : Collection) (paths : List (List OsText)),
      collect {} dashed "p" = .ok collection ∧ collection.files = paths.map (pathBelow "p") ∧
      [Text.bytes "a", Text.bytes "x.php"] ∈ paths ∧ [Text.bytes "a-b.php"] ∈ paths ∧
      paths.Pairwise Precedes ∧ Precedes ["a", "x.php"] ["a-b.php"] ∧
      ("p/a-b.php" : OsText) < ("p/a/x.php" : OsText) ∧
      collect {} { dashed with root := .directory [("p", .directory [("a", .directory [
        ("x.php", .file []), ("y.php", .file [])]), ("a-b.php", .file [])])] } "p" =
          .ok collection := by
  have wellNamed : dashed.WellNamed := by decide +kernel
  have isDirectory : dashed.isDirectory "p" = true := by decide +kernel
  obtain ⟨collection, paths, collected, files, components, ordered, -, again⟩ :=
    collect_files_ordered {} dashed "p" ⟨[]⟩ wellNamed isDirectory rfl
  have listed (names : List OsText) (areComponents : ∀ name ∈ names, IsComponent name)
      (listed : Listed ⟨[]⟩ dashed "p" names) : names ∈ paths := by
    have member := (pathBelow_mem_files_iff wellNamed isDirectory rfl collected areComponents).mpr
      listed
    rw [files, List.mem_map] at member
    obtain ⟨others, othersMember, same⟩ := member
    rwa [← FileTree.pathBelow_injective (by decide) (components others othersMember)
      areComponents same]
  refine ⟨collection, paths, collected, files, listed _ ?_ ?_, listed _ ?_ ?_, ordered, ?_, ?_,
    (again _ ?_).1⟩
  all_goals first | exact .rel (by decide +kernel) | decide +kernel

end TimeoutAudit.Audit
