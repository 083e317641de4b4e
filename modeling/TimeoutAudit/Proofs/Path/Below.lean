import TimeoutAudit.Proofs.Path.Parent

/-!
# Paths below a base

A path from the root is below a base if the steps of the base are the first of its own.  What it has
below the base is then made of the steps that are left, without segments that lead nowhere at
both ends (`Path.below?_eq_some`).
-/

set_option autoImplicit false

namespace TimeoutAudit.Path

/-- Segments that all lead somewhere. -/
def Moving (parts : List OsText) : Prop := ∀ part ∈ parts, isIdle part = false

variable {base path : OsText}

theorem moving_steps (path : OsText) : Moving (steps path) :=
  fun _ member => by simpa using (List.mem_filter.mp member).2

theorem mem_segments_of_mem_steps {step : OsText} (member : step ∈ steps path) :
    step ∈ segments path :=
  (List.mem_filter.mp member).1

theorem Moving.filter_eq {parts : List OsText} (moving : Moving parts) :
    parts.filter (fun part => !isIdle part) = parts :=
  List.filter_eq_self.mpr fun part member => by simp [moving part member]

theorem Idle.filter_eq {parts : List OsText} (idle : Idle parts) :
    parts.filter (fun part => !isIdle part) = [] :=
  List.filter_eq_nil_iff.mpr fun part member => by simp [idle part member]

theorem afterSteps_append {first : List OsText} (moving : Moving first) (rest : List OsText) :
    afterSteps first.length (first ++ rest) = rest := by
  induction first with
  | nil => simp [afterSteps]
  | cons part first ih =>
      have moves := moving part List.mem_cons_self
      rw [List.length_cons, List.cons_append, afterSteps]
      simp only [moves, Bool.false_eq_true, if_false]
      exact ih fun other member => moving other (List.mem_cons_of_mem _ member)

theorem dropWhile_isIdle {parts : List OsText} (moving : Moving parts) :
    parts.dropWhile isIdle = parts := by
  cases parts with
  | nil => rfl
  | cons part rest => exact List.dropWhile_cons_of_neg (by simp [moving part List.mem_cons_self])

theorem dropWhile_idle_append {front : List OsText} (idle : Idle front) (rest : List OsText) :
    (front ++ rest).dropWhile isIdle = rest.dropWhile isIdle :=
  List.dropWhile_append_of_pos idle

/-- Idle segments are trimmed away on both sides. -/
theorem trimIdle_around {front parts back : List OsText} (idleFront : Idle front)
    (moving : Moving parts) (idleBack : Idle back) :
    trimIdle (front ++ (parts ++ back)) = parts := by
  have reversed : Moving parts.reverse :=
    fun part member => moving part (List.mem_reverse.mp member)
  have reversedBack : Idle back.reverse :=
    fun part member => idleBack part (List.mem_reverse.mp member)
  rw [trimIdle, dropWhile_idle_append idleFront]
  cases parts with
  | nil =>
      have none := dropWhile_idle_append idleBack []
      rw [List.append_nil, List.dropWhile_nil] at none
      rw [List.nil_append, none]
      rfl
  | cons part others =>
      have moves := moving part List.mem_cons_self
      rw [List.cons_append, List.dropWhile_cons_of_neg (by simp [moves]), ← List.cons_append,
        List.reverse_append, dropWhile_idle_append reversedBack, dropWhile_isIdle reversed,
        List.reverse_reverse]

theorem startsHere_of_isAbsolute (absolute : isAbsolute path = true) :
    startsHere path = false := by
  obtain ⟨rest, split, -⟩ := isAbsolute_iff.mp absolute
  rw [startsHere, split]
  rfl

/-- **What a path has below a base:** the steps behind those of the base, joined. -/
theorem below?_eq_some {names back : List OsText} (fromRoot : isAbsolute base = true)
    (absolute : isAbsolute path = true)
    (parts : segments path = [] :: (steps base ++ (names ++ back))) (moving : Moving names)
    (idle : Idle back) : below? base path = some (joined names) := by
  have own : steps path = steps base ++ names := by
    rw [steps, parts, List.filter_cons_of_neg (by decide), List.filter_append, List.filter_append,
      (moving_steps base).filter_eq, moving.filter_eq, idle.filter_eq, List.append_nil]
  -- The empty segment in front is only passed over on the way along the base.
  obtain ⟨front, idleFront, behind⟩ : ∃ front, Idle front ∧
      afterSteps (steps base).length (segments path) = front ++ (names ++ back) := by
    rw [parts]
    cases above : steps base with
    | nil => exact ⟨[[]], by simp [Idle, isIdle], rfl⟩
    | cons step rest =>
        exact ⟨[], by simp [Idle],
          afterSteps_append (above ▸ moving_steps base) (names ++ back)⟩
  rw [below?, own, behind, trimIdle_around idleFront moving idle]
  simp only [fromRoot, absolute, startsHere_of_isAbsolute fromRoot,
    startsHere_of_isAbsolute absolute, List.isPrefixOf_iff_prefix, List.prefix_append,
    beq_self_eq_true, Bool.and_self, Bool.true_and, if_true]

theorem below?_eq_none (beside : ¬ steps base <+: steps path) : below? base path = none := by
  rw [below?, if_neg]
  simp only [Bool.and_eq_true, List.isPrefixOf_iff_prefix]
  exact fun found => beside found.2

end TimeoutAudit.Path
