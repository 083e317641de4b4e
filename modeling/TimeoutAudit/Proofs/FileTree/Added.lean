import TimeoutAudit.Proofs.FileTree.Walk

/-!
# A file that is added to a tree

A tree that keeps its directories and links, and in which files are still files, leads every path to
where it led before (`FileTree.Keeps.resolve_eq`).  A file that is added where nothing stood is such
a change, and the only new thing that a path can lead to is this file
(`FileTree.Vacant.resolve_withFile`).
-/

set_option autoImplicit false

namespace TimeoutAudit

namespace FileTree

variable {tree left : FileTree} {path : OsText} {location : Location}

/-- A tree with a file under a name of a directory. -/
abbrev withFile (tree : FileTree) (directory : Location) (name : OsText) (content : List UInt8) :
    FileTree := tree.put (directory ++ [name]) (.file content)

theorem read_eq_ok_iff {content : List UInt8} :
    tree.read path = .ok content ↔
      ∃ location, tree.resolve path = .ok location ∧
        tree.view location = some (.file content) := by
  unfold read lookup
  cases tree.resolve path with
  | error reason => simp
  | ok location =>
      cases found : tree.entry? location with
      | none => simp [view_eq, found]
      | some entry => cases entry <;> simp [view_eq, found, Entry.shape]

/-! ## Trees that keep what stands in them -/

/-- A tree in which directories and links are kept, and files are still files. -/
structure Keeps (tree left : FileTree) : Prop where
  here : left.here = tree.here
  shapes : ∀ location shape, tree.view location = some shape →
    left.view location = some shape ∨
      ∃ old new, shape = .file old ∧ left.view location = some (.file new)

namespace Keeps

theorem refl (tree : FileTree) : Keeps tree tree := ⟨rfl, fun _ _ seen => .inl seen⟩

theorem trans {further : FileTree} (first : Keeps tree left) (second : Keeps left further) :
    Keeps tree further where
  here := second.here.trans first.here
  shapes location shape seen := by
    rcases first.shapes location shape seen with same | ⟨old, new, rfl, file⟩
    · exact second.shapes location shape same
    · rcases second.shapes location _ file with same | ⟨_, newer, -, file⟩
      · exact .inr ⟨old, new, rfl, same⟩
      · exact .inr ⟨old, newer, rfl, file⟩

variable (keeps : Keeps tree left)

include keeps

theorem directory (inside : tree.view location = some .directory) :
    left.view location = some .directory := by
  rcases keeps.shapes location _ inside with same | ⟨_, _, isFile, _⟩
  · exact same
  · cases isFile

theorem link {target : OsText} (found : tree.view location = some (.link target)) :
    left.view location = some (.link target) := by
  rcases keeps.shapes location _ found with same | ⟨_, _, isFile, _⟩
  · exact same
  · cases isFile

theorem plain {shape : Shape} (found : tree.view location = some shape)
    (noLink : ∀ target, shape ≠ .link target) :
    ∃ kept, left.view location = some kept ∧ ∀ target, kept ≠ .link target := by
  rcases keeps.shapes location _ found with same | ⟨_, new, _, file⟩
  · exact ⟨shape, same, noLink⟩
  · exact ⟨.file new, file, nofun⟩

theorem course {current : Location} {segments : List OsText} {progress : Progress}
    (course : Course tree true current segments progress)
    (found : ∀ directory name slashed, progress ≠ .missing directory name slashed) :
    Course left true current segments progress := by
  induction course with
  | arrive current => exact .arrive current
  | stay inside idle _ ih => exact .stay (keeps.directory inside) idle (ih found)
  | rise inside _ ih => exact .rise (keeps.directory inside) (ih found)
  | enter inside named seen noLink _ ih =>
      obtain ⟨kept, seenNow, stillNone⟩ := keeps.plain seen noLink
      exact .enter (keeps.directory inside) named seenNow stillNone (ih found)
  | miss => exact absurd rfl (found _ _ _)
  | link inside named seen followed =>
      exact .link (keeps.directory inside) named (keeps.link seen) followed
  | halt _ _ _ unfollowed => simp at unfollowed

theorem route {links : Nat} {current : Location} {segments : List OsText}
    (route : Route tree true links current segments (.present location)) :
    Route left true links current segments (.present location) := by
  generalize ended : Spot.present location = spot at route
  induction route with
  | present course =>
      cases ended
      exact .present (keeps.course course nofun)
  | absent => cases ended
  | jump course _ ih => exact .jump (keeps.course course nofun) (ih ended)

/-- **A path still leads to where it led.** -/
theorem resolve_eq (leads : tree.resolve path = .ok location) :
    left.resolve path = .ok location := by
  rw [resolve_eq_ok_iff, spot_eq_ok_iff] at leads ⊢
  refine ⟨leads.1, ?_⟩
  rw [startOf, keeps.here]
  exact keeps.route leads.2

end Keeps

/-! ## A place for a file -/

/-- A name that stands for nothing in a directory. -/
structure Vacant (tree : FileTree) (directory : Location) (name : OsText) : Prop where
  inside : tree.view directory = some .directory
  absent : tree.view (directory ++ [name]) = none

namespace Vacant

variable {directory : Location} {name : OsText} (vacant : Vacant tree directory name)
  (content : List UInt8)

include vacant

theorem view_withFile (location : Location) :
    (tree.withFile directory name content).view location =
      if location = directory ++ [name] then some (.file content) else tree.view location := by
  rw [view_put_new (Entry.bare_file content) vacant.inside vacant.absent]
  by_cases same : location = directory ++ [name] <;> simp [same, Entry.shape]

theorem view_place :
    (tree.withFile directory name content).view (directory ++ [name]) = some (.file content) := by
  rw [vacant.view_withFile, if_pos rfl]

/-- All but files are the same as before. -/
theorem view_withFile_iff {shape : Shape} (noFile : ∀ bytes, shape ≠ .file bytes) :
    (tree.withFile directory name content).view location = some shape ↔
      tree.view location = some shape := by
  rw [vacant.view_withFile]
  split
  · next same =>
      constructor
      · intro isFile
        exact absurd (Option.some.inj isFile).symm (noFile content)
      · intro seen
        rw [same, vacant.absent] at seen
        cases seen
  · rfl

theorem keeps : Keeps tree (tree.withFile directory name content) where
  here := rfl
  shapes location shape seen := by
    refine .inl ?_
    rw [vacant.view_withFile, if_neg]
    · exact seen
    · rintro rfl
      rw [vacant.absent] at seen
      cases seen

/-- From a file no segment leads further. -/
theorem course_from_place {segments : List OsText} {progress : Progress}
    (course : Course (tree.withFile directory name content) true (directory ++ [name])
      segments progress) : progress = .arrived (directory ++ [name]) := by
  have isFile : (tree.withFile directory name content).view (directory ++ [name]) ≠
      some .directory := by
    rw [vacant.view_place]
    nofun
  cases course with
  | arrive => rfl
  | stay inside => exact absurd inside isFile
  | rise inside => exact absurd inside isFile
  | enter inside => exact absurd inside isFile
  | miss inside => exact absurd inside isFile
  | link inside => exact absurd inside isFile
  | halt inside => exact absurd inside isFile

/-- A course that does not end at the new file was one before. -/
theorem course_before {current : Location} {segments : List OsText} {progress : Progress}
    (course : Course (tree.withFile directory name content) true current segments progress)
    (found : ∀ directory name slashed, progress ≠ .missing directory name slashed) :
    progress = .arrived (directory ++ [name]) ∨ Course tree true current segments progress := by
  have directories (location : Location) :
      (tree.withFile directory name content).view location = some .directory ↔
        tree.view location = some .directory := vacant.view_withFile_iff content (by simp)
  induction course with
  | arrive current => exact .inr (.arrive current)
  | stay inside idle _ ih => exact (ih found).imp_right (.stay ((directories _).mp inside) idle)
  | rise inside _ ih => exact (ih found).imp_right (.rise ((directories _).mp inside))
  | @enter current segment rest progress shape inside named seen noLink onward ih =>
      by_cases new : current ++ [segment] = directory ++ [name]
      · rw [new] at onward
        exact .inl (vacant.course_from_place content onward)
      · rw [vacant.view_withFile, if_neg new] at seen
        exact (ih found).imp_right (.enter ((directories _).mp inside) named seen noLink)
  | miss => exact absurd rfl (found _ _ _)
  | link inside named seen followed =>
      exact .inr (.link ((directories _).mp inside) named
        ((vacant.view_withFile_iff content (by simp)).mp seen) followed)
  | halt _ _ _ unfollowed => simp at unfollowed

theorem route_before {links : Nat} {current : Location} {segments : List OsText}
    (route : Route (tree.withFile directory name content) true links current segments
      (.present location)) :
    location = directory ++ [name] ∨
      Route tree true links current segments (.present location) := by
  generalize ended : Spot.present location = spot at route
  induction route with
  | present course =>
      cases ended
      rcases vacant.course_before content course nofun with new | before
      · exact .inl (Progress.arrived.inj new)
      · exact .inr (.present before)
  | absent => cases ended
  | jump course _ ih =>
      rcases vacant.course_before content course nofun with new | before
      · cases new
      · exact (ih ended).imp_right (.jump before)

/-- **A path leads to the new file, or to where it led before.** -/
theorem resolve_withFile :
    (tree.withFile directory name content).resolve path = .ok location →
      location = directory ++ [name] ∨ tree.resolve path = .ok location := by
  rw [resolve_eq_ok_iff, spot_eq_ok_iff, resolve_eq_ok_iff, spot_eq_ok_iff]
  rintro ⟨nonempty, route⟩
  exact (vacant.route_before content route).imp_right fun before => ⟨nonempty, before⟩

/-! ## What paths lead to -/

/-- The directories to which paths lead are the same. -/
theorem isDirectory_withFile_iff :
    (tree.withFile directory name content).isDirectory path = true ↔
      tree.isDirectory path = true := by
  rw [isDirectory_iff, isDirectory_iff]
  constructor
  · rintro ⟨location, leads, inside⟩
    rcases vacant.resolve_withFile content leads with rfl | before
    · rw [vacant.view_place] at inside
      cases inside
    · exact ⟨location, before, (vacant.view_withFile_iff content (by simp)).mp inside⟩
  · rintro ⟨location, leads, inside⟩
    exact ⟨location, (vacant.keeps content).resolve_eq leads,
      (vacant.keeps content).directory inside⟩

/-- The links in the directories to which paths lead are the same. -/
theorem isLink_withFile_iff {segment : OsText} :
    (tree.withFile directory name content).IsLink path segment ↔
      tree.IsLink path segment := by
  simp only [IsLink, ← view_eq_link_iff]
  constructor
  · rintro ⟨location, target, leads, link⟩
    rw [vacant.view_withFile_iff content (by simp)] at link
    rcases vacant.resolve_withFile content leads with rfl | before
    · rw [view_below_of_ne_directory (by simp [vacant.absent])] at link
      cases link
    · exact ⟨location, target, before, link⟩
  · rintro ⟨location, target, leads, link⟩
    exact ⟨location, target, (vacant.keeps content).resolve_eq leads,
      (vacant.keeps content).link link⟩

/-- The files to which paths lead are the same, but for the new one. -/
theorem isFile_withFile_iff :
    (tree.withFile directory name content).isFile path = true ∧
        (tree.withFile directory name content).resolve path ≠ .ok (directory ++ [name]) ↔
      tree.isFile path = true := by
  rw [isFile_iff, isFile_iff]
  constructor
  · rintro ⟨⟨location, bytes, leads, file⟩, other⟩
    rcases vacant.resolve_withFile content leads with rfl | before
    · exact absurd leads other
    · rw [vacant.view_withFile, if_neg] at file
      · exact ⟨location, bytes, before, file⟩
      · rintro rfl
        exact other leads
  · rintro ⟨location, bytes, leads, file⟩
    have old : location ≠ directory ++ [name] := by
      rintro rfl
      rw [vacant.absent] at file
      cases file
    have leadsNow := (vacant.keeps content).resolve_eq leads
    refine ⟨⟨location, bytes, leadsNow, ?_⟩, ?_⟩
    · rw [vacant.view_withFile, if_neg old, file]
    · rw [leadsNow]
      simpa using old

/-- The content of every other file is the same. -/
theorem read_withFile (isFile : tree.isFile path = true) :
    (tree.withFile directory name content).read path = tree.read path := by
  obtain ⟨location, bytes, leads, file⟩ := isFile_iff.mp isFile
  rw [read_eq_ok_iff.mpr ⟨location, leads, file⟩]
  refine read_eq_ok_iff.mpr ⟨location, (vacant.keeps content).resolve_eq leads, ?_⟩
  rw [vacant.view_withFile, if_neg]
  · exact file
  · rintro rfl
    rw [vacant.absent] at file
    cases file

end Vacant

/-! ## The working directory -/

theorem startOf_of_component {name : OsText} (component : Path.IsComponent name) :
    tree.startOf name = tree.here := by
  rw [startOf, component.not_absolute, if_neg Bool.false_ne_true]

theorem resolve_here (inside : tree.view tree.here = some .directory) :
    tree.resolve Path.here = .ok tree.here := by
  rw [resolve_eq_ok_iff, spot_eq_ok_iff]
  exact ⟨by decide, .present (.stay inside rfl (.arrive tree.here))⟩

/-- A name leads to what stands under it in the working directory. -/
theorem resolve_name {name : OsText} {shape : Shape} (fileName : FileName name)
    (seen : tree.view (tree.here ++ [name]) = some shape)
    (plain : ∀ target, shape ≠ .link target) :
    tree.resolve name = .ok (tree.here ++ [name]) := by
  have component := fileName.isComponent
  rw [resolve_eq_ok_iff, spot_eq_ok_iff, component.segments_eq, startOf_of_component component]
  exact ⟨component.nonempty,
    .present (.enter (view_of_below seen) fileName.toNamed seen plain (.arrive _))⟩

/-- Writing under a new name adds a file to the working directory. -/
theorem writeFile_name {name : OsText} {content : List UInt8} {written : FileTree}
    (fileName : FileName name) (absent : tree.view (tree.here ++ [name]) = none)
    (ok : tree.writeFile name content = .ok written) :
    Vacant tree tree.here name ∧ written = tree.withFile tree.here name content := by
  have component := fileName.isComponent
  have ended : tree.spot true name = tree.follow true linkLimit tree.here [name] := by
    rw [spot, if_neg (by simp [component.nonempty]), startOf_of_component component,
      component.segments_eq]
  by_cases inside : tree.view tree.here = some .directory
  · have missing : tree.spot true name = .ok (.absent tree.here name false) := by
      rw [ended, follow, Course.advance_eq (.miss inside fileName.toNamed absent rfl)]
      rfl
    rw [writeFile, missing] at ok
    exact ⟨⟨inside, absent⟩, (Except.ok.inj ok).symm⟩
  · have failed : tree.spot true name = .error .notDirectory := by
      rw [ended, follow, advance_cons, if_neg inside]
    rw [writeFile, failed] at ok
    cases ok

/-! ## Directories that are created -/

theorem ensureDirectory_here (tree : FileTree) (path : OsText) :
    (tree.ensureDirectory path).1.here = tree.here := by
  unfold ensureDirectory
  split
  · next created ok =>
      obtain ⟨directory, name, slashed, -, rfl, -⟩ := createDirectory_eq_ok ok
      rfl
  · rfl

theorem createAllWithin_here (depth : Nat) (tree : FileTree) (path : OsText) :
    (createAllWithin depth tree path).1.here = tree.here := by
  fun_induction createAllWithin depth tree path with
  | case1 => rfl
  | case2 => rfl
  | case3 _ _ _ _ _ ok =>
      obtain ⟨directory, name, slashed, -, rfl, -⟩ := createDirectory_eq_ok ok
      rfl
  | case4 => rfl
  | case5 _ _ _ _ _ _ _ _ _ partly ih =>
      rw [partly] at ih
      exact ih
  | case6 _ _ path _ _ _ _ ready done ih =>
      rw [done] at ih
      exact (ensureDirectory_here ready path).trans ih
  | case7 => rfl

/-- A tree that grew keeps what stood in it. -/
theorem Grown.keeps {grown : FileTree} (growth : Grown tree grown) (here : grown.here = tree.here) :
    Keeps tree grown :=
  ⟨here, fun location shape seen => .inl (growth.kept location shape seen)⟩

theorem createDirectories_keeps (tree : FileTree) (path : OsText) :
    Keeps tree (tree.createDirectories path).1 :=
  (createDirectories_grown tree path).keeps (createAllWithin_here _ tree path)

/-! ## Files that are written -/

/-- Writing a file keeps what stood in a tree, but for the content of a file that was there. -/
theorem writeFile_keeps {content : List UInt8} {written : FileTree}
    (ok : tree.writeFile path content = .ok written) : Keeps tree written := by
  have here : written.here = tree.here := by
    unfold writeFile at ok
    split at ok
    · cases ok
    · split at ok <;> cases ok
      rfl
    · split at ok <;> cases ok
      rfl
  obtain ⟨place, view, origin⟩ := writeFile_cases ok
  refine ⟨here, fun location shape seen => ?_⟩
  by_cases same : location = place
  · subst same
    rcases origin with ⟨-, old, file⟩ | ⟨absent, -⟩
    · have isFile := Option.some.inj (seen.symm.trans file)
      exact .inr ⟨old, content, isFile, by rw [view, Function.update_self]⟩
    · rw [absent] at seen
      cases seen
  · exact .inl (by rw [view, Function.update_of_ne same, seen])

end FileTree

/-! ## Names -/

namespace Entry

theorem mem_locationsOfAll_replace {entries : List (OsText × Entry)} {name : OsText} {value : Entry}
    {location : Location} (member : location ∈ locationsOfAll (replace name value entries)) :
    location ∈ locationsOfAll entries ∨ ∃ below ∈ value.locations, location = name :: below := by
  induction entries with
  | nil =>
      simp only [replace, locationsOfAll, List.append_nil, List.mem_map] at member
      obtain ⟨below, inside, rfl⟩ := member
      exact .inr ⟨below, inside, rfl⟩
  | cons entry rest ih =>
      obtain ⟨other, old⟩ := entry
      unfold replace at member
      split at member
      · simp only [locationsOfAll, List.mem_append, List.mem_map] at member ⊢
        rcases member with ⟨below, inside, rfl⟩ | later
        · exact .inr ⟨below, inside, rfl⟩
        · exact .inl (.inr later)
      · simp only [locationsOfAll, List.mem_append] at member ⊢
        rcases member with first | later
        · exact .inl (.inl first)
        · exact (ih later).imp_left .inr

/-- A file that is put somewhere adds at most its own location. -/
theorem mem_locations_put {content : List UInt8} {entry : Entry} {place location : Location}
    (member : location ∈ ((Entry.file content).put place entry).locations) :
    location ∈ entry.locations ∨ location = place := by
  fun_induction put (.file content) place entry generalizing location with
  | case1 => exact .inr (by simpa [locations] using member)
  | case2 name entries =>
      rcases List.mem_cons.mp member with rfl | below
      · exact .inl (nil_mem_locations _)
      · rcases mem_locationsOfAll_replace below with old | ⟨rest, inside, rfl⟩
        · exact .inl (List.mem_cons_of_mem _ old)
        · exact .inr (by simpa [locations] using inside)
  | case3 name rest _ entries child found ih =>
      rcases List.mem_cons.mp member with rfl | below
      · exact .inl (nil_mem_locations _)
      · rcases mem_locationsOfAll_replace below with old | ⟨further, inside, rfl⟩
        · exact .inl (List.mem_cons_of_mem _ old)
        · rcases ih inside with old | rfl
          · exact .inl (List.mem_cons_of_mem _ (cons_mem_locationsOfAll found old))
          · exact .inr rfl
  | case4 => exact .inl member
  | case5 => exact .inl member

end Entry

namespace FileTree

variable {tree : FileTree} {location : Location}

/-- A new name that can be one leaves the names of a tree as they should be. -/
theorem WellNamed.withFile (wellNamed : tree.WellNamed) {directory : Location} {name : OsText}
    (inside : tree.view directory = some .directory) (fileName : FileName name)
    (content : List UInt8) : (tree.withFile directory name content).WellNamed := by
  intro location member segment part
  rcases Entry.mem_locations_put member with old | rfl
  · exact wellNamed location old segment part
  · rcases List.mem_append.mp part with above | last
    · exact wellNamed directory (mem_locations_of_view inside) segment above
    · rw [List.mem_singleton.mp last]
      exact fileName

end FileTree

end TimeoutAudit
