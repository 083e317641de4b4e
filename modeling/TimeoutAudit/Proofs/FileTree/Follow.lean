import TimeoutAudit.Proofs.FileTree.View
import TimeoutAudit.Proofs.Path.Parent

/-!
# Following paths

How far a path leads up to its first link is a course through the tree, one rule for each
kind of segment (`FileTree.Course`), and a route is made of courses from link to link
(`FileTree.Route`).  Routes are what a path is followed along (`FileTree.spot_eq_ok_iff`), and
they only look at the view of the tree.

A route to a missing name becomes a route to the directory that is created there
(`FileTree.Route.filled`).  A path that leads to a location can be continued from there
(`FileTree.Route.follow_append`), so a path whose parent is an empty directory leads nowhere
unless its last segment goes up again (`FileTree.spot_ne_present_of_child`).
-/

set_option autoImplicit false

namespace TimeoutAudit.FileTree

/-! ## Courses -/

/-- A segment that can be a name. -/
structure Named (segment : OsText) : Prop where
  moves : Path.isIdle segment = false
  down : segment ≠ Path.up
  short : segment.length ≤ nameLimit

/-- Segments that lead from a location to some progress without an error. -/
inductive Course (tree : FileTree) (followLast : Bool) : Location → List OsText → Progress → Prop
  | arrive (current : Location) : Course tree followLast current [] (.arrived current)
  | stay {current : Location} {segment : OsText} {rest : List OsText} {progress : Progress}
      (inside : tree.view current = some .directory) (idle : Path.isIdle segment = true)
      (onward : Course tree followLast current rest progress) :
      Course tree followLast current (segment :: rest) progress
  | rise {current : Location} {rest : List OsText} {progress : Progress}
      (inside : tree.view current = some .directory)
      (onward : Course tree followLast current.dropLast rest progress) :
      Course tree followLast current (Path.up :: rest) progress
  | enter {current : Location} {segment : OsText} {rest : List OsText} {progress : Progress}
      {shape : Shape} (inside : tree.view current = some .directory) (named : Named segment)
      (found : tree.view (current ++ [segment]) = some shape)
      (plain : ∀ target, shape ≠ .link target)
      (onward : Course tree followLast (current ++ [segment]) rest progress) :
      Course tree followLast current (segment :: rest) progress
  | miss {current : Location} {segment : OsText} {rest : List OsText}
      (inside : tree.view current = some .directory) (named : Named segment)
      (absent : tree.view (current ++ [segment]) = none)
      (slashes : rest.all List.isEmpty = true) :
      Course tree followLast current (segment :: rest) (.missing current segment (!rest.isEmpty))
  | link {current : Location} {segment target : OsText} {rest : List OsText}
      (inside : tree.view current = some .directory) (named : Named segment)
      (found : tree.view (current ++ [segment]) = some (.link target))
      (followed : (rest.isEmpty && !followLast) = false) :
      Course tree followLast current (segment :: rest) (.link current target rest)
  | halt {current : Location} {segment target : OsText} {rest : List OsText}
      (inside : tree.view current = some .directory) (named : Named segment)
      (found : tree.view (current ++ [segment]) = some (.link target))
      (unfollowed : (rest.isEmpty && !followLast) = true) :
      Course tree followLast current (segment :: rest) (.arrived (current ++ [segment]))

theorem Named.of_not {segment : OsText} (moves : ¬ Path.isIdle segment = true)
    (down : ¬ (segment == Path.up) = true) (short : ¬ nameLimit < segment.length) :
    Named segment :=
  ⟨by simpa using moves, by simpa using down, by omega⟩

theorem Named.not_idle {segment : OsText} (named : Named segment) :
    ¬ Path.isIdle segment = true := by
  simp [named.moves]

/-- A name is neither passed over, nor a step up, nor too long. -/
theorem Named.skip {segment : OsText} (named : Named segment) {α : Type} (idle up long name : α) :
    (if Path.isIdle segment then idle else if segment = Path.up then up
      else if nameLimit < segment.length then long else name) = name := by
  rw [if_neg named.not_idle, if_neg named.down, if_neg (Nat.not_lt.mpr named.short)]

variable {tree : FileTree} {followLast : Bool}

/-- One segment further, read off the view. -/
theorem advance_cons (current : Location) (segment : OsText) (rest : List OsText) :
    tree.advance followLast current (segment :: rest) =
      if tree.view current = some .directory then
        if Path.isIdle segment then tree.advance followLast current rest
        else if segment = Path.up then tree.advance followLast current.dropLast rest
        else if nameLimit < segment.length then .failed .nameTooLong
        else
          match tree.view (current ++ [segment]) with
          | none =>
            if rest.all List.isEmpty then .missing current segment (!rest.isEmpty)
            else .failed .notFound
          | some (.link target) =>
            if rest.isEmpty && !followLast then .arrived (current ++ [segment])
            else .link current target rest
          | some _ => tree.advance followLast (current ++ [segment]) rest
      else .failed .notDirectory := by
  rw [advance]
  cases here : tree.entry? current with
  | none => simp [view_eq, here]
  | some entry =>
      cases entry with
      | file content => simp [view_eq, here, Entry.shape]
      | link target => simp [view_eq, here, Entry.shape]
      | directory entries =>
          have inside : tree.view current = some .directory :=
            view_eq_directory_iff.mpr ⟨entries, here⟩
          simp only [inside, if_true, beq_iff_eq, view_concat here]
          cases entries.lookup segment with
          | none => rfl
          | some child => cases child <;> rfl

/-- An advance without an error is a course. -/
theorem Course.of_advance {current : Location} {segments : List OsText} {progress : Progress}
    (reached : tree.advance followLast current segments = progress)
    (fine : ∀ error, progress ≠ .failed error) :
    Course tree followLast current segments progress := by
  fun_induction advance tree followLast current segments with
  | case1 current => exact reached ▸ .arrive current
  | case2 current segment rest entries here idle ih =>
      exact .stay (view_eq_directory_iff.mpr ⟨entries, here⟩) idle (ih reached)
  | case3 current segment rest entries here _ up ih =>
      obtain rfl : segment = Path.up := by simpa using up
      exact .rise (view_eq_directory_iff.mpr ⟨entries, here⟩) (ih reached)
  | case4 => exact absurd reached.symm (fine _)
  | case5 current segment rest entries here moves down short lookup slashes =>
      have absent : tree.view (current ++ [segment]) = none := by
        rw [view_concat here, lookup]
        rfl
      exact reached ▸ .miss (view_eq_directory_iff.mpr ⟨entries, here⟩)
        (.of_not moves down short) absent slashes
  | case6 => exact absurd reached.symm (fine _)
  | case7 current segment rest entries here moves down short target lookup last =>
      have found : tree.view (current ++ [segment]) = some (.link target) := by
        rw [view_concat here, lookup]
        rfl
      exact reached ▸ .halt (view_eq_directory_iff.mpr ⟨entries, here⟩)
        (.of_not moves down short) found last
  | case8 current segment rest entries here moves down short target lookup followed =>
      have found : tree.view (current ++ [segment]) = some (.link target) := by
        rw [view_concat here, lookup]
        rfl
      exact reached ▸ .link (view_eq_directory_iff.mpr ⟨entries, here⟩)
        (.of_not moves down short) found (by simpa using followed)
  | case9 current segment rest entries here moves down short child plain lookup ih =>
      have found : tree.view (current ++ [segment]) = some child.shape := by
        rw [view_concat here, lookup]
        rfl
      refine .enter (view_eq_directory_iff.mpr ⟨entries, here⟩) (.of_not moves down short) found ?_
        (ih reached)
      intro target same
      cases child with
      | link other => exact plain other rfl
      | file content => cases same
      | directory entries => cases same
  | case10 => exact absurd reached.symm (fine _)

/-- A course is what an advance finds. -/
theorem Course.advance_eq {current : Location} {segments : List OsText} {progress : Progress}
    (course : Course tree followLast current segments progress) :
    tree.advance followLast current segments = progress := by
  induction course with
  | arrive => rfl
  | stay inside idle _ ih => rw [advance_cons, if_pos inside, if_pos idle, ih]
  | rise inside _ ih =>
      rw [advance_cons, if_pos inside, if_neg (by decide), if_pos rfl, ih]
  | @enter current segment rest progress shape inside named found plain _ ih =>
      rw [advance_cons, if_pos inside, named.skip, found]
      cases shape with
      | file content => exact ih
      | directory => exact ih
      | link target => exact absurd rfl (plain target)
  | miss inside named absent slashes =>
      rw [advance_cons, if_pos inside, named.skip, absent]
      simp only [slashes, if_true]
  | link inside named found followed =>
      rw [advance_cons, if_pos inside, named.skip, found]
      simp only [followed, Bool.false_eq_true, if_false]
  | halt inside named found unfollowed =>
      rw [advance_cons, if_pos inside, named.skip, found]
      simp only [unfollowed, if_true]

/-! ## Following links -/

/-- Where the target of a link starts. -/
def targetStart (directory : Location) (target : OsText) : Location :=
  if Path.isAbsolute target then [] else directory

/-- Courses from link to link up to the end of a path, with a number of links to spare. -/
inductive Route (tree : FileTree) (followLast : Bool) :
    Nat → Location → List OsText → Spot → Prop
  | present {links : Nat} {current location : Location} {segments : List OsText}
      (course : Course tree followLast current segments (.arrived location)) :
      Route tree followLast links current segments (.present location)
  | absent {links : Nat} {current directory : Location} {segments : List OsText} {name : OsText}
      {slashed : Bool}
      (course : Course tree followLast current segments (.missing directory name slashed)) :
      Route tree followLast links current segments (.absent directory name slashed)
  | jump {left : Nat} {current directory : Location} {segments rest : List OsText}
      {target : OsText} {spot : Spot}
      (course : Course tree followLast current segments (.link directory target rest))
      (onward : Route tree followLast left (targetStart directory target)
        (Path.segments target ++ rest) spot) :
      Route tree followLast (left + 1) current segments spot

theorem Route.of_follow {links : Nat} {current : Location} {segments : List OsText} {spot : Spot}
    (reached : tree.follow followLast links current segments = .ok spot) :
    Route tree followLast links current segments spot := by
  fun_induction follow tree followLast links current segments with
  | case1 _ _ _ location arrived =>
      cases reached
      exact .present (.of_advance arrived (by simp))
  | case2 _ _ _ directory name slashed missing =>
      cases reached
      exact .absent (.of_advance missing (by simp))
  | case3 => cases reached
  | case4 => cases reached
  | case5 _ _ directory target rest link left _ ih =>
      exact .jump (.of_advance link (by simp)) (ih reached)

theorem Route.follow_eq {links : Nat} {current : Location} {segments : List OsText} {spot : Spot}
    (route : Route tree followLast links current segments spot) :
    tree.follow followLast links current segments = .ok spot := by
  induction route with
  | present course => rw [follow, course.advance_eq]
  | absent course => rw [follow, course.advance_eq]
  | jump course _ ih =>
      rw [follow, course.advance_eq]
      exact ih

/-- **A path that is followed without an error runs along a route.** -/
theorem spot_eq_ok_iff {path : OsText} {spot : Spot} :
    tree.spot followLast path = .ok spot ↔
      path ≠ [] ∧
        Route tree followLast linkLimit (tree.startOf path) (Path.segments path) spot := by
  rw [FileTree.spot]
  by_cases empty : path = []
  · simp [empty]
  · rw [if_neg (by simpa using empty)]
    exact ⟨fun reached => ⟨empty, .of_follow reached⟩, fun route => route.2.follow_eq⟩

/-! ## Missing names -/

/-- Where a name is missing, its directory exists. -/
theorem Course.absent {current directory : Location} {segments : List OsText} {name : OsText}
    {slashed : Bool}
    (course : Course tree followLast current segments (.missing directory name slashed)) :
    tree.view directory = some .directory ∧ tree.view (directory ++ [name]) = none := by
  generalize reached : Progress.missing directory name slashed = progress at course
  induction course with
  | arrive => cases reached
  | stay _ _ _ ih => exact ih reached
  | rise _ _ ih => exact ih reached
  | enter _ _ _ _ _ ih => exact ih reached
  | miss inside _ absent _ =>
      cases reached
      exact ⟨inside, absent⟩
  | link => cases reached
  | halt => cases reached

theorem Route.absent_view {links : Nat} {current directory : Location} {segments : List OsText}
    {name : OsText} {slashed : Bool}
    (route : Route tree followLast links current segments (.absent directory name slashed)) :
    tree.view directory = some .directory ∧ tree.view (directory ++ [name]) = none := by
  generalize ended : Spot.absent directory name slashed = spot at route
  induction route with
  | present => cases ended
  | absent course =>
      cases ended
      exact course.absent
  | jump _ _ ih => exact ih ended

/-- **Where a path ends at a missing name, the name is missing in a directory.** -/
theorem spot_absent {path : OsText} {directory : Location} {name : OsText} {slashed : Bool}
    (reached : tree.spot followLast path = .ok (.absent directory name slashed)) :
    tree.view directory = some .directory ∧ tree.view (directory ++ [name]) = none :=
  (spot_eq_ok_iff.mp reached).2.absent_view

/-! ## Names that are created -/

/-- Progress where a missing name was created. -/
def Progress.filled : Progress → Progress
  | .missing directory name _ => .arrived (directory ++ [name])
  | other => other

theorem Course.of_slashes {current : Location} {rest : List OsText}
    (inside : tree.view current = some .directory) (slashes : rest.all List.isEmpty = true) :
    Course tree followLast current rest (.arrived current) := by
  induction rest with
  | nil => exact .arrive current
  | cons segment rest ih =>
      simp only [List.all_cons, Bool.and_eq_true] at slashes
      exact .stay inside (by simp [Path.isIdle, slashes.1]) (ih slashes.2)

section Grown

variable {grown : FileTree}
  (kept : ∀ location shape, tree.view location = some shape → grown.view location = some shape)

include kept

/-- A course up to a link or to a missing name stays one when the tree grows. -/
theorem Course.filled {current : Location} {segments : List OsText} {progress : Progress}
    (course : Course tree false current segments progress)
    (unfinished : ∀ location, progress ≠ .arrived location)
    (made : ∀ directory name slashed, progress = .missing directory name slashed →
      grown.view (directory ++ [name]) = some .directory) :
    Course grown true current segments progress.filled := by
  induction course with
  | arrive current => exact absurd rfl (unfinished current)
  | stay inside idle _ ih => exact .stay (kept _ _ inside) idle (ih unfinished made)
  | rise inside _ ih => exact .rise (kept _ _ inside) (ih unfinished made)
  | enter inside named found plain _ ih =>
      exact .enter (kept _ _ inside) named (kept _ _ found) plain (ih unfinished made)
  | miss inside named _ slashes =>
      have created := made _ _ _ rfl
      exact .enter (kept _ _ inside) named created (by simp) (.of_slashes created slashes)
  | link inside named found _ =>
      exact .link (kept _ _ inside) named (kept _ _ found) (by simp)
  | halt => exact absurd rfl (unfinished _)

theorem Route.filled {links : Nat} {current directory : Location} {segments : List OsText}
    {name : OsText} {slashed : Bool}
    (route : Route tree false links current segments (.absent directory name slashed))
    (made : grown.view (directory ++ [name]) = some .directory) :
    Route grown true links current segments (.present (directory ++ [name])) := by
  generalize ended : Spot.absent directory name slashed = spot at route
  induction route with
  | present => cases ended
  | absent course =>
      cases ended
      refine .present (course.filled kept (by simp) ?_)
      rintro _ _ _ ⟨⟩
      exact made
  | jump course _ ih => exact .jump (course.filled kept (by simp) (by simp)) (ih ended)

end Grown

/-! ## Paths that go on -/

/-- Idle segments lead nowhere. -/
theorem Course.of_idle {current : Location} {segments : List OsText} {progress : Progress}
    (idle : Path.Idle segments) (course : Course tree followLast current segments progress) :
    progress = .arrived current := by
  induction course with
  | arrive => rfl
  | stay _ _ _ ih => exact ih idle.tail
  | rise => exact absurd idle.head (by decide)
  | enter _ named => exact absurd idle.head named.not_idle
  | miss _ named => exact absurd idle.head named.not_idle
  | link _ named => exact absurd idle.head named.not_idle
  | halt _ named => exact absurd idle.head named.not_idle

/-- What the first segment of a course does, it does before any others: it leads one step
further, or it is a link.  Only a missing name depends on what comes behind it. -/
theorem Course.first_cases {current : Location} {segment : OsText} {rest : List OsText}
    {progress : Progress} (course : Course tree true current (segment :: rest) progress) :
    (∃ next, Course tree true next rest progress ∧ ∀ others,
      tree.advance true current (segment :: others) = tree.advance true next others) ∨
    (∃ target, progress = .link current target rest ∧ ∀ others,
      tree.advance true current (segment :: others) = .link current target others) ∨
    ∃ slashed, progress = .missing current segment slashed := by
  cases course with
  | stay inside idle onward =>
      refine .inl ⟨current, onward, fun others => ?_⟩
      rw [advance_cons, if_pos inside, if_pos idle]
  | rise inside onward =>
      refine .inl ⟨current.dropLast, onward, fun others => ?_⟩
      rw [advance_cons, if_pos inside, if_neg (by decide), if_pos rfl]
  | @enter _ _ _ _ shape inside named found plain onward =>
      refine .inl ⟨current ++ [segment], onward, fun others => ?_⟩
      rw [advance_cons, if_pos inside, named.skip, found]
      cases shape with
      | file content => rfl
      | directory => rfl
      | link target => exact absurd rfl (plain target)
  | miss => exact .inr (.inr ⟨_, rfl⟩)
  | @link _ _ target _ inside named found _ =>
      refine .inr (.inl ⟨target, rfl, fun others => ?_⟩)
      rw [advance_cons, if_pos inside, named.skip, found]
      simp
  | halt _ _ _ unfollowed => simp at unfollowed

/-- Where the front of a path leads, the rest is followed from there. -/
theorem Course.advance_append {current location : Location} {front idle : List OsText}
    (idles : Path.Idle idle)
    (course : Course tree true current (front ++ idle) (.arrived location)) (rest : List OsText) :
    tree.advance true current (front ++ rest) = tree.advance true location rest := by
  induction front generalizing current with
  | nil =>
      cases course.of_idle idles
      rfl
  | cons segment front ih =>
      rcases course.first_cases with ⟨next, onward, leads⟩ | ⟨_, same, _⟩ | ⟨_, same⟩
      · rw [List.cons_append, leads, ih onward]
      · cases same
      · cases same

/-- Where a link stands in the front of a path, the rest is followed behind its target. -/
theorem Course.advance_append_of_link {current directory : Location} {target : OsText}
    {front idle behind : List OsText} (idles : Path.Idle idle)
    (course : Course tree true current (front ++ idle) (.link directory target behind)) :
    ∃ left, behind = left ++ idle ∧ ∀ rest,
      tree.advance true current (front ++ rest) = .link directory target (left ++ rest) := by
  induction front generalizing current with
  | nil => cases course.of_idle idles
  | cons segment front ih =>
      rcases course.first_cases with ⟨next, onward, leads⟩ | ⟨_, same, leads⟩ | ⟨_, same⟩
      · obtain ⟨left, split, continued⟩ := ih onward
        exact ⟨left, split, fun rest => (leads _).trans (continued rest)⟩
      · cases same
        exact ⟨front, rfl, fun rest => leads _⟩
      · cases same

/-- **A path that leads to a location is continued from there.** -/
theorem Route.follow_append {links : Nat} {current location : Location}
    {front idle : List OsText} (idles : Path.Idle idle)
    (route : Route tree true links current (front ++ idle) (.present location)) :
    ∃ left, ∀ rest, tree.follow true links current (front ++ rest) =
      tree.follow true left location rest := by
  generalize whole : front ++ idle = segments at route
  generalize ended : Spot.present location = spot at route
  induction route generalizing front with
  | @present links current location segments course =>
      cases ended
      subst whole
      refine ⟨links, fun rest => ?_⟩
      rw [follow.eq_def, course.advance_append idles, follow.eq_def tree true links location]
  | absent => cases ended
  | jump course _ ih =>
      subst whole
      obtain ⟨before, rfl, leads⟩ := course.advance_append_of_link idles
      obtain ⟨left, continued⟩ := ih (List.append_assoc _ before idle) ended
      refine ⟨left, fun rest => ?_⟩
      rw [follow, leads rest, ← continued rest, List.append_assoc]
      rfl

/-! ## Empty directories -/

/-- In a directory without a name, segments with this name are not followed to their end. -/
theorem Course.of_absent_name {location : Location} {name : OsText} {before after : List OsText}
    {progress : Progress} (absent : tree.view (location ++ [name]) = none)
    (moves : Path.isIdle name = false) (down : name ≠ Path.up) (idles : Path.Idle before)
    (course : Course tree followLast location (before ++ name :: after) progress) :
    ∃ slashed, progress = .missing location name slashed := by
  induction before with
  | nil =>
      cases course with
      | stay _ idle => simp [moves] at idle
      | rise => exact absurd rfl down
      | enter _ _ found => simp [absent] at found
      | miss => exact ⟨_, rfl⟩
      | link _ _ found => simp [absent] at found
      | halt _ _ found => simp [absent] at found
  | cons segment before ih =>
      cases course with
      | stay _ _ onward => exact ih idles.tail onward
      | rise => exact absurd idles.head (by decide)
      | enter _ named => exact absurd idles.head named.not_idle
      | miss _ named => exact absurd idles.head named.not_idle
      | link _ named => exact absurd idles.head named.not_idle
      | halt _ named => exact absurd idles.head named.not_idle

/-- **A path whose parent is an empty directory leads nowhere,** unless it goes up again. -/
theorem spot_ne_present_of_child {parent path name : OsText} {location other : Location}
    (child : Path.Child parent path name) (down : name ≠ Path.up)
    (parentSpot : tree.spot true parent = .ok (.present location))
    (empty : tree.view (location ++ [name]) = none) :
    tree.spot true path ≠ .ok (.present other) := by
  intro present
  obtain ⟨common, idle, before, after, parentParts, pathParts, idleEnd, idleBefore, -⟩ :=
    child.divided
  have sameStart : tree.startOf path = tree.startOf parent := by
    rw [startOf, startOf, child.sameStart]
  have parentRoute := (spot_eq_ok_iff.mp parentSpot).2
  have pathRoute := (spot_eq_ok_iff.mp present).2
  rw [parentParts] at parentRoute
  obtain ⟨left, continued⟩ := parentRoute.follow_append idleEnd
  rw [pathParts, sameStart] at pathRoute
  have inside := Route.of_follow ((continued _).symm.trans pathRoute.follow_eq)
  cases inside with
  | present course =>
      obtain ⟨slashed, same⟩ := course.of_absent_name empty child.moves down idleBefore
      cases same
  | jump course =>
      obtain ⟨slashed, same⟩ := course.of_absent_name empty child.moves down idleBefore
      cases same

end TimeoutAudit.FileTree
