import TimeoutAudit.Proofs.Path.Displayed

/-!
# Paths as they are shown

A normal path starts at the root and has no `.`, no `..` and no separator too many, so that its
segments are its steps (`Path.Normal.exists_segments`).  Below a base it is shown with `./` in front
of the names on the way from there, with slashes for backslashes, and any other path is shown as it
is (`Path.ShownAs`, `Path.Normal.shownAs`).

So two normal paths look alike only below the base, and there exactly if their names do when every
backslash is read as a slash (`Path.shown_alike_iff`).  A name can hold a backslash, and then two
files may look alike (`Path.shown_alike_backslash`).
-/

set_option autoImplicit false

namespace TimeoutAudit.Path

variable {base path : OsText}

/-! ## Normal paths -/

/-- A path from the root, without `.`, without `..` and without repeated separators. -/
structure Normal (path : OsText) : Prop where
  absolute : isAbsolute path = true
  noHere : here ∉ segments path
  noUp : up ∉ segments path
  noRepeat : ¬ [slash, slash] <:+: path

/-- An empty segment between others comes from two separators in a row. -/
theorem nil_notMem_inner (noRepeat : ¬ [slash, slash] <:+: path) :
    [] ∉ (segments path).tail.dropLast := by
  induction path with
  | nil => simp [segments]
  | cons byte rest ih =>
      have inner := ih fun twice => noRepeat (twice.trans (List.suffix_cons byte rest).isInfix)
      obtain ⟨first, more, split⟩ := List.exists_cons_of_ne_nil (segments_ne_nil rest)
      rw [split, List.tail_cons] at inner
      by_cases divides : byte = slash
      · subst divides
        have whole : (segments (slash :: rest)).tail = first :: more := by
          rw [← List.nil_append (slash :: rest), segments_append_slash, split]
          rfl
        rw [whole]
        cases more with
        | nil => simp
        | cons second others =>
            rw [List.dropLast_cons_cons, List.mem_cons, not_or]
            refine ⟨?_, inner⟩
            rintro rfl
            have absolute : isAbsolute rest = true :=
              isAbsolute_iff.mpr ⟨second :: others, split, by simp⟩
            obtain ⟨after, rfl⟩ : ∃ after, rest = slash :: after := by
              simpa [isAbsolute, List.head?_eq_some_iff] using absolute
            exact noRepeat ⟨[], after, rfl⟩
      · have whole : (segments (byte :: rest)).tail = more := by
          rw [segments, List.splitOn_cons_eq_if_modifyHead, if_neg (by simpa using divides),
            ← segments, split]
          rfl
        rwa [whole]

/-- **The segments of a normal path are its steps,** with an empty segment in front and possibly
one behind. -/
theorem Normal.exists_segments (normal : Normal path) :
    ∃ back, Idle back ∧ segments path = [] :: (steps path ++ back) := by
  obtain ⟨rest, split, nonempty⟩ := isAbsolute_iff.mp normal.absolute
  have inner := nil_notMem_inner normal.noRepeat
  have noHere := normal.noHere
  rw [split, List.tail_cons] at inner
  rw [split, List.mem_cons, not_or] at noHere
  have moves {part : OsText} (member : part ∈ rest) (notEmpty : part ≠ []) :
      isIdle part = false := by
    have notHere : part ≠ here := fun same => noHere.2 (same ▸ member)
    simp [isIdle, notEmpty, notHere]
  have movingInner : Moving rest.dropLast := fun part member =>
    moves (List.dropLast_subset rest member) fun empty => inner (empty ▸ member)
  have whole : rest.dropLast ++ [rest.getLast nonempty] = rest :=
    List.dropLast_concat_getLast nonempty
  have own : steps path = rest.filter fun part => !isIdle part := by
    rw [steps, split, List.filter_cons_of_neg (by decide)]
  by_cases ends : rest.getLast nonempty = []
  · rw [ends] at whole
    refine ⟨[[]], by simp [Idle, isIdle], ?_⟩
    rw [split, own, ← whole, List.filter_append, movingInner.filter_eq]
    simp [isIdle]
  · have moving : Moving rest := by
      intro part member
      rw [← whole, List.mem_append, List.mem_singleton] at member
      rcases member with isInner | rfl
      · exact movingInner part isInner
      · exact moves (List.getLast_mem nonempty) ends
    refine ⟨[], by simp [Idle], ?_⟩
    rw [split, own, moving.filter_eq, List.append_nil]

/-! ## Names below a base -/

/-- A path leads from a base to a place by names, which are whole components. -/
def Leads (base path : OsText) (names : List OsText) : Prop := steps path = steps base ++ names

/-- Names as a relative path. -/
def written (names : List OsText) : String := decodeLossy (joined names)

/-- A text with slashes for backslashes. -/
def slashed (text : String) : String :=
  String.ofList (text.toList.map fun c => if c == '\\' then '/' else c)

theorem Leads.unique {names others : List OsText} (leads : Leads base path names)
    (again : Leads base path others) : names = others :=
  List.append_cancel_left (leads.symm.trans again)

theorem Leads.subset_steps {names : List OsText} (leads : Leads base path names) :
    ∀ name ∈ names, name ∈ steps path := by
  intro name member
  rw [leads]
  exact List.mem_append_right _ member

theorem Leads.moving {names : List OsText} (leads : Leads base path names) : Moving names :=
  fun name member => moving_steps path name (leads.subset_steps name member)

theorem Leads.subset_segments {names : List OsText} (leads : Leads base path names) :
    ∀ name ∈ names, name ∈ segments path :=
  fun name member => mem_segments_of_mem_steps (leads.subset_steps name member)

theorem not_prefix_of_not_leads (beside : ∀ names, ¬ Leads base path names) :
    ¬ steps base <+: steps path :=
  fun ⟨names, leads⟩ => beside names leads.symm

theorem below?_of_leads (fromRoot : isAbsolute base = true) (normal : Normal path)
    {names : List OsText} (leads : Leads base path names) :
    below? base path = some (joined names) := by
  obtain ⟨back, idle, parts⟩ := normal.exists_segments
  rw [leads, List.append_assoc] at parts
  exact below?_eq_some fromRoot normal.absolute parts leads.moving idle

/-- Names are read back from their relative path. -/
theorem Leads.segments_joined {names : List OsText} (leads : Leads base path names)
    (nonempty : names ≠ []) : segments (joined names) = names :=
  Path.segments_joined nonempty fun name member =>
    noSlash_of_mem_segments name (leads.subset_segments name member)

theorem Leads.joined_ne_nil {names : List OsText} (leads : Leads base path names)
    (nonempty : names ≠ []) : joined names ≠ [] := by
  intro none
  have readBack := leads.segments_joined nonempty
  rw [none] at readBack
  have moves := leads.moving [] (readBack ▸ List.mem_singleton_self [])
  exact absurd moves (by decide)

theorem Leads.eq_of_joined {first second : OsText} {names others : List OsText}
    (leads : Leads base first names) (otherLeads : Leads base second others)
    (same : joined names = joined others) : names = others := by
  by_cases none : names = []
  · subst none
    by_cases otherNone : others = []
    · exact otherNone.symm
    · exact absurd same.symm (otherLeads.joined_ne_nil otherNone)
  · by_cases otherNone : others = []
    · subst otherNone
      exact absurd same (leads.joined_ne_nil none)
    · rw [← leads.segments_joined none, same, otherLeads.segments_joined otherNone]

/-- Below a base, the relative path of a text is shown as it is. -/
theorem Leads.displayed_joined {text : String} {names : List OsText}
    (leads : Leads base text names) : displayed (joined names) = joined names := by
  rw [Path.displayed_joined, List.map_congr_left (g := id), List.map_id]
  exact fun name member => displayed_of_mem_segments (displayed_bytes text) name
    (leads.subset_segments name member)

/-! ## What is shown -/

/-- Below the base a path is shown by the names on the way from there, and the base itself as `./`.
Any other path stays as it is. -/
structure ShownAs (base : OsText) (path text : String) : Prop where
  below : ∀ names, Leads base path names → text = "./" ++ slashed (written names)
  beside : (∀ names, ¬ Leads base path names) → text = path

theorem Normal.shownAs {path : String} (fromRoot : isAbsolute base = true) (normal : Normal path) :
    ShownAs base path (shown base path) := by
  have some : base.isEmpty = false := by
    cases base with
    | nil => cases fromRoot
    | cons first rest => rfl
  constructor
  · intro names leads
    rw [shown, some, below?_of_leads fromRoot normal leads]
    rfl
  · intro beside
    rw [shown, some, below?_eq_none (not_prefix_of_not_leads beside)]
    rfl

theorem slashed_eq_self_iff {text : String} : slashed text = text ↔ '\\' ∉ text.toList := by
  have letters : slashed text = text ↔
      text.toList.map (fun c => if c == '\\' then '/' else c) = text.toList.map id := by
    rw [slashed, ← String.toList_inj, String.toList_ofList, List.map_id]
  rw [letters, List.map_inj_left]
  constructor
  · intro kept backslash
    exact absurd (kept _ backslash) (by decide)
  · intro absent c member
    have other : c ≠ '\\' := fun same => absent (same ▸ member)
    simp [other]

/-- A path that is shown from a base is no path from the root. -/
theorem ne_shown_below {path : String} (absolute : isAbsolute path = true) (text : String) :
    path ≠ "./" ++ text := by
  rintro rfl
  have front : Text.bytes "./" = [dot, slash] := by decide
  rw [Text.bytes_append, front] at absolute
  exact absurd absolute (show ¬ (some dot == some slash) = true by decide)

/-- No name on the way from the base has a backslash. -/
def Unslashed (base path : OsText) : Prop :=
  ∀ names, Leads base path names → '\\' ∉ (written names).toList

section Alike

variable {first second : String} (fromRoot : isAbsolute base = true) (normal : Normal first)
  (otherNormal : Normal second)

include fromRoot normal otherNormal

/-- Normal paths look alike if they are the same, or below the base in the same way up to
backslashes. -/
theorem shown_eq_shown_iff :
    shown base first = shown base second ↔ first = second ∨ ∃ names others,
      Leads base first names ∧ Leads base second others ∧
        slashed (written names) = slashed (written others) := by
  have firstShown := normal.shownAs fromRoot
  have secondShown := otherNormal.shownAs fromRoot
  constructor
  · intro alike
    by_cases below : ∃ names, Leads base first names
    · obtain ⟨names, leads⟩ := below
      rw [firstShown.below names leads] at alike
      by_cases otherBelow : ∃ others, Leads base second others
      · obtain ⟨others, otherLeads⟩ := otherBelow
        rw [secondShown.below others otherLeads, String.append_right_inj] at alike
        exact .inr ⟨names, others, leads, otherLeads, alike⟩
      · rw [secondShown.beside (not_exists.mp otherBelow)] at alike
        exact absurd alike.symm (ne_shown_below otherNormal.absolute _)
    · rw [firstShown.beside (not_exists.mp below)] at alike
      by_cases otherBelow : ∃ others, Leads base second others
      · obtain ⟨others, otherLeads⟩ := otherBelow
        rw [secondShown.below others otherLeads] at alike
        exact absurd alike (ne_shown_below normal.absolute _)
      · rw [secondShown.beside (not_exists.mp otherBelow)] at alike
        exact .inl alike
  · rintro (rfl | ⟨names, others, leads, otherLeads, same⟩)
    · rfl
    · rw [firstShown.below names leads, secondShown.below others otherLeads, same]

/-- Without backslashes, paths that look alike lead to the same place. -/
theorem steps_eq_of_shown_eq (unslashed : Unslashed base first)
    (otherUnslashed : Unslashed base second) (alike : shown base first = shown base second) :
    steps first = steps second := by
  rcases (shown_eq_shown_iff fromRoot normal otherNormal).mp alike with
    rfl | ⟨names, others, leads, otherLeads, same⟩
  · rfl
  · rw [slashed_eq_self_iff.mpr (unslashed names leads),
      slashed_eq_self_iff.mpr (otherUnslashed others otherLeads)] at same
    have sameNames : names = others := leads.eq_of_joined otherLeads <| calc
      joined names = displayed (joined names) := leads.displayed_joined.symm
      _ = displayed (joined others) := congrArg Text.bytes same
      _ = joined others := otherLeads.displayed_joined
    exact leads.trans (sameNames ▸ otherLeads.symm)

/-- **Paths look alike exactly if they only differ by backslashes below the base.**  A normal path
below the base is shown as `./` and its relative path, with slashes for backslashes, and so as its
relative path exactly if there is no backslash in it; any other path stays as it is.  Two of them
look alike exactly if they are the same, or both are below the base and their relative paths are the
same up to backslashes; so different places never look alike if no name has a backslash. -/
theorem shown_alike_iff :
    ShownAs base first (shown base first) ∧
    (∀ names, Leads base first names →
      (shown base first = "./" ++ written names ↔ '\\' ∉ (written names).toList)) ∧
    (shown base first = shown base second ↔ first = second ∨ ∃ names others,
      Leads base first names ∧ Leads base second others ∧
        slashed (written names) = slashed (written others)) ∧
    (Unslashed base first → Unslashed base second → steps first ≠ steps second →
      shown base first ≠ shown base second) := by
  refine ⟨normal.shownAs fromRoot, fun names leads => ?_,
    shown_eq_shown_iff fromRoot normal otherNormal, fun unslashed otherUnslashed apart alike => ?_⟩
  · rw [(normal.shownAs fromRoot).below names leads, String.append_right_inj, slashed_eq_self_iff]
  · exact apart (steps_eq_of_shown_eq fromRoot normal otherNormal unslashed otherUnslashed alike)

end Alike

/-- A file in a directory whose name starts like the base, and one below the base. -/
theorem shown_alike_iff_project :
    (isAbsolute "/project" = true ∧ Normal "/project2/a.php" ∧ Normal "/project/x/a.php") ∧
    shown "/project" "/project2/a.php" = "/project2/a.php" ∧
    shown "/project" "/project/x/a.php" = "./x/a.php" ∧
    shown "/project" "/project2/a.php" ≠ shown "/project" "/project/x/a.php" := by
  have fromRoot : isAbsolute "/project" = true := by decide
  have beside : Normal "/project2/a.php" :=
    ⟨by decide, by decide, by decide, by decide +kernel⟩
  have inside : Normal "/project/x/a.php" :=
    ⟨by decide, by decide, by decide, by decide +kernel⟩
  have notBelow : ∀ names, ¬ Leads "/project" "/project2/a.php" names := by
    intro names leads
    have first := congrArg List.head? leads
    have computed : steps "/project" = [Text.bytes "project"] ∧
        (steps "/project2/a.php").head? = some (Text.bytes "project2") := by decide +kernel
    rw [computed.1, computed.2, List.singleton_append, List.head?_cons] at first
    exact absurd (Text.bytes_inj.mp (Option.some.inj first)) (by decide)
  have below : Leads "/project" "/project/x/a.php" ["x", "a.php"] := by
    unfold Leads
    decide +kernel
  obtain ⟨shownBeside, -, alike, -⟩ := shown_alike_iff fromRoot beside inside
  obtain ⟨-, shownInside, -, -⟩ := shown_alike_iff fromRoot inside beside
  refine ⟨⟨fromRoot, beside, inside⟩, shownBeside.beside notBelow, ?_, ?_⟩
  · exact (shownInside _ below).mpr (by decide +kernel)
  · rw [Ne, alike, not_or]
    exact ⟨by decide, fun ⟨names, _, leads, _⟩ => notBelow names leads⟩

/-- **Two files may look alike:** one with a backslash in its name, and one in a directory. -/
theorem shown_alike_backslash :
    isAbsolute "/project" = true ∧ Normal "/project/a\\b.php" ∧ Normal "/project/a/b.php" ∧
      "/project/a\\b.php" ≠ "/project/a/b.php" ∧
      shown "/project" "/project/a\\b.php" = shown "/project" "/project/a/b.php" ∧
      shown "/project" "/project/a\\b.php" ≠ "./a\\b.php" := by
  refine ⟨by decide, ⟨by decide, by decide, by decide, by decide +kernel⟩,
    ⟨by decide, by decide, by decide, by decide +kernel⟩, by decide, ?_, ?_⟩
  · decide +kernel
  · decide +kernel

end TimeoutAudit.Path
