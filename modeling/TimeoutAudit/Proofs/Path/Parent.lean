import TimeoutAudit.Path

/-!
# A path and its parent

Segments of a path and the path itself determine each other: joining paths with a slash
puts their segments one behind the other (`Path.segments_append_slash`), so segments that
were joined are read back (`Path.segments_joined`).

The parent of a path is a path of its own.  `Path.exists_of_parent?` says what it has to do
with the path: both start at the same place and with the same segments, after which the
path has one segment that leads somewhere, among segments that lead nowhere.
-/

set_option autoImplicit false

namespace TimeoutAudit.Path

/-! ## Segments of joined paths -/

theorem segments_ne_nil (path : OsText) : segments path ≠ [] := List.splitOn_ne_nil slash path

/-- A slash between two paths divides their segments. -/
theorem segments_append_slash (first rest : OsText) :
    segments (first ++ slash :: rest) = segments first ++ segments rest :=
  List.splitOn_append_cons_self first rest

theorem segments_of_noSlash {path : OsText} (noSlash : slash ∉ path) : segments path = [path] :=
  List.splitOn_eq_singleton noSlash

theorem noSlash_of_mem_segments {path : OsText} :
    ∀ segment ∈ segments path, slash ∉ segment := by
  unfold segments
  induction path with
  | nil => simp
  | cons byte rest ih =>
      obtain ⟨first, more, split⟩ :=
        List.exists_cons_of_ne_nil (List.splitOn_ne_nil slash rest)
      rw [split] at ih
      rw [List.splitOn_cons_eq_if_modifyHead, split]
      by_cases divides : byte = slash
      · simpa [divides] using ih
      · simp only [beq_iff_eq, divides, if_false, List.modifyHead_cons, List.mem_cons,
          forall_eq_or_imp] at ih ⊢
        exact ⟨fun member => member.elim (fun same => divides same.symm) ih.1, ih.2⟩

/-- **Segments that are joined are read back.** -/
theorem segments_joined {parts : List OsText} (nonempty : parts ≠ [])
    (noSlash : ∀ part ∈ parts, slash ∉ part) : segments (joined parts) = parts :=
  List.splitOn_intercalate slash noSlash nonempty

theorem joined_segments (path : OsText) : joined (segments path) = path :=
  List.intercalate_splitOn slash

@[simp] theorem joined_singleton (part : OsText) : joined [part] = part :=
  List.intercalate_singleton

theorem joined_cons_cons (first second : OsText) (rest : List OsText) :
    joined (first :: second :: rest) = first ++ slash :: joined (second :: rest) := by
  rw [joined, List.intercalate_cons_cons, List.append_assoc]
  rfl

theorem eq_nil_of_segments {path : OsText} (single : segments path = [[]]) : path = [] := by
  rw [← joined_segments path, single]
  rfl

/-- A path is absolute if an empty segment comes before others. -/
theorem isAbsolute_iff {path : OsText} :
    isAbsolute path = true ↔ ∃ rest, segments path = [] :: rest ∧ rest ≠ [] := by
  unfold isAbsolute segments
  cases path with
  | nil => simp
  | cons byte rest =>
      obtain ⟨first, more, split⟩ :=
        List.exists_cons_of_ne_nil (List.splitOn_ne_nil slash rest)
      rw [List.splitOn_cons_eq_if_modifyHead, split]
      by_cases divides : byte = slash
      · simp [divides]
      · simp [divides]

/-! ## Parents -/

/-- Segments that lead nowhere. -/
def Idle (parts : List OsText) : Prop := ∀ part ∈ parts, isIdle part = true

theorem Idle.head {part : OsText} {parts : List OsText} (idle : Idle (part :: parts)) :
    isIdle part = true :=
  idle part List.mem_cons_self

theorem Idle.tail {part : OsText} {parts : List OsText} (idle : Idle (part :: parts)) :
    Idle parts :=
  fun other member => idle other (List.mem_cons_of_mem part member)

/-- A path is its parent with one more segment that leads somewhere.  Segments that lead
nowhere may stand behind the parent, and on both sides of the name. -/
structure Child (parent path name : OsText) : Prop where
  sameStart : isAbsolute parent = isAbsolute path
  moves : isIdle name = false
  divided : ∃ common idle before after, segments parent = common ++ idle ∧
    segments path = common ++ (before ++ name :: after) ∧ Idle idle ∧ Idle before ∧ Idle after

/-- Without a step up in a path there is none in its parent. -/
theorem Child.level {parent path name : OsText} (child : Child parent path name)
    (level : up ∉ segments path) : name ≠ up ∧ up ∉ segments parent := by
  obtain ⟨common, idle, before, after, parentParts, pathParts, idleEnd, -, -⟩ := child.divided
  simp only [pathParts, List.mem_append, List.mem_cons, not_or] at level
  obtain ⟨notCommon, -, notName, -⟩ := level
  refine ⟨Ne.symm notName, fun member => ?_⟩
  rw [parentParts, List.mem_append] at member
  rcases member with inCommon | inIdle
  · exact notCommon inCommon
  · exact absurd (idleEnd up inIdle) (by decide)

/-- The last segment that leads somewhere, with idle ones on both sides of it. -/
theorem exists_of_dropWhile_isIdle {body before : List OsText} {name : OsText}
    (last : body.reverse.dropWhile isIdle = name :: before) :
    isIdle name = false ∧ ∃ idle after,
      body = (before.dropWhile isIdle).reverse ++ (idle ++ name :: after) ∧
        Idle idle ∧ Idle after := by
  have idleTake (parts : List OsText) : Idle (parts.takeWhile isIdle).reverse :=
    fun part member => List.all_eq_true.mp (List.all_takeWhile) part (List.mem_reverse.mp member)
  have moves : isIdle name = false := by
    have head := List.head?_dropWhile_not isIdle body.reverse
    rw [last] at head
    simpa using head
  refine ⟨moves, (before.takeWhile isIdle).reverse, (body.reverse.takeWhile isIdle).reverse, ?_,
    idleTake _, idleTake _⟩
  have whole : body.reverse = body.reverse.takeWhile isIdle ++ name :: before := by
    rw [← last, List.takeWhile_append_dropWhile]
  have front : before = before.takeWhile isIdle ++ before.dropWhile isIdle :=
    List.takeWhile_append_dropWhile.symm
  calc
    body = (body.reverse.takeWhile isIdle ++ name :: before).reverse := by
      rw [← whole, List.reverse_reverse]
    _ = before.reverse ++ name :: (body.reverse.takeWhile isIdle).reverse := by simp
    _ = _ := by
      rw [← List.append_assoc, ← List.reverse_append, ← front]

/-- Segments that are kept of a path are read back when they are joined. -/
theorem segments_kept {path : OsText} {first body before : List OsText} {name : OsText}
    (whole : segments path = first ++ body)
    (last : body.reverse.dropWhile isIdle = name :: before)
    (kept : (before.dropWhile isIdle).reverse ≠ []) :
    segments (joined (before.dropWhile isIdle).reverse) =
      (before.dropWhile isIdle).reverse := by
  obtain ⟨-, between, after, split, -, -⟩ := exists_of_dropWhile_isIdle last
  refine segments_joined kept fun part member => ?_
  have inPath : part ∈ segments path := by
    rw [whole, split]
    exact List.mem_append_right _ (List.mem_append_left _ member)
  exact noSlash_of_mem_segments part inPath

/-- How a path begins: its front, the segments of this front, and those behind it, which
its parent is made from. -/
structure Front (path front : OsText) (first body : List OsText) : Prop where
  whole : segments path = first ++ body
  continued : ∀ rest, segments (front ++ rest) = first ++ segments rest
  alone : ∃ idle, Idle idle ∧
    segments (if front == [dot, slash] then here else front) = first ++ idle
  blank : first = [] → front = []

theorem exists_front (path : OsText) :
    ∃ front first body, Front path front first body ∧
      (if isAbsolute path then [slash] else if startsHere path then [dot, slash] else []) = front ∧
      (if front.isEmpty then segments path else (segments path).tail) = body := by
  by_cases absolute : isAbsolute path = true
  · obtain ⟨body, split, -⟩ := isAbsolute_iff.mp absolute
    refine ⟨[slash], [[]], body, ⟨split, ?_, ⟨[[]], ?_, rfl⟩, by simp⟩, by simp [absolute], ?_⟩
    · exact fun rest => segments_append_slash [] rest
    · simp [Idle, isIdle]
    · simp [split]
  · by_cases starts : startsHere path = true
    · obtain ⟨body, split⟩ : ∃ body, segments path = here :: body := by
        simpa [startsHere, List.head?_eq_some_iff] using starts
      refine ⟨[dot, slash], [here], body, ⟨split, ?_, ⟨[], ?_, rfl⟩, by simp⟩,
        by simp [absolute, starts], ?_⟩
      · exact fun rest => segments_append_slash here rest
      · simp [Idle]
      · simp [split]
    · refine ⟨[], [], segments path, ⟨rfl, by simp, ⟨[[]], ?_, rfl⟩, fun _ => rfl⟩, ?_, rfl⟩
      · simp [Idle, isIdle]
      · simp [absolute, starts]

/-- Paths with a common front start at the same place. -/
theorem isAbsolute_eq_of_common {parent path : OsText} {common idle rest : List OsText}
    (nonempty : parent ≠ []) (front : common ≠ []) (more : rest ≠ [])
    (parentParts : segments parent = common ++ idle) (pathParts : segments path = common ++ rest) :
    isAbsolute parent = isAbsolute path := by
  obtain ⟨head, tail, rfl⟩ := List.exists_cons_of_ne_nil front
  -- A path with nothing but an empty segment is empty.
  have longer : head = [] → tail ++ idle ≠ [] := by
    intro empty none
    rw [List.cons_append, none, empty] at parentParts
    exact nonempty (eq_nil_of_segments parentParts)
  rw [Bool.eq_iff_iff, isAbsolute_iff, isAbsolute_iff, parentParts, pathParts]
  constructor
  · rintro ⟨others, same, -⟩
    obtain ⟨rfl, -⟩ := List.cons.inj same
    exact ⟨tail ++ rest, rfl, by simp [more]⟩
  · rintro ⟨others, same, -⟩
    obtain ⟨rfl, -⟩ := List.cons.inj same
    exact ⟨tail ++ idle, rfl, longer rfl⟩

/-- What the parent of a path is made of, if it is not empty. -/
theorem parent?_cases {path parent : OsText} (found : parent? path = some parent)
    (nonempty : parent ≠ []) :
    ∃ first body name before idle, segments path = first ++ body ∧
      body.reverse.dropWhile isIdle = name :: before ∧ Idle idle ∧
      first ++ (before.dropWhile isIdle).reverse ≠ [] ∧
      segments parent = first ++ (before.dropWhile isIdle).reverse ++ idle := by
  obtain ⟨front, first, body, ⟨whole, continued, ⟨idle, idleEnd, alone⟩, blank⟩, frontIs, bodyIs⟩ :=
    exists_front path
  unfold parent? at found
  simp only [frontIs, bodyIs] at found
  cases last : body.reverse.dropWhile isIdle with
  | nil =>
      rw [last] at found
      by_cases starts : startsHere path = true
      · exact absurd (by simpa [starts] using found.symm) nonempty
      · simp [starts] at found
  | cons name before =>
      by_cases kept : (before.dropWhile isIdle).reverse = []
      · obtain rfl : parent = if front == [dot, slash] then here else front := by
          simpa [last, kept] using found.symm
        refine ⟨first, body, name, before, idle, whole, last, idleEnd, ?_, ?_⟩
        · rw [kept, List.append_nil]
          intro none
          exact nonempty (by rw [blank none]; rfl)
        · rw [kept, alone, List.append_nil]
      · obtain rfl : parent = front ++ joined _ := by
          simpa [last, kept] using found.symm
        refine ⟨first, body, name, before, [], whole, last, ?_, by simp [kept], ?_⟩
        · exact fun part member => absurd member List.not_mem_nil
        · rw [continued, segments_kept whole last kept, List.append_nil]

/-- **A path is its parent with one more segment that leads somewhere.** -/
theorem exists_of_parent? {path parent : OsText} (found : parent? path = some parent)
    (nonempty : parent ≠ []) : ∃ name, Child parent path name := by
  obtain ⟨first, body, name, before, idle, whole, last, idleEnd, front, parts⟩ :=
    parent?_cases found nonempty
  obtain ⟨moves, between, after, split, idleBetween, idleAfter⟩ :=
    exists_of_dropWhile_isIdle last
  have pathParts : segments path =
      first ++ (before.dropWhile isIdle).reverse ++ (between ++ name :: after) := by
    rw [whole, split, List.append_assoc]
  exact ⟨name, isAbsolute_eq_of_common nonempty front (by simp) parts pathParts, moves, _, idle,
    between, after, parts, pathParts, idleEnd, idleBetween, idleAfter⟩

end TimeoutAudit.Path
