import Mathlib.Data.List.DropRight
import TimeoutAudit.Proofs.Detection

/-!
# The life cycle of detectors

Steps on a list of detectors may be aimed at all of them or at one, may fail, and may
come in any order.  What a detector holds after such a run can be said from the steps
alone (`Detector.held`): what it found since it was last emptied, in the order of the
steps.  One step changes a detector as its own action says and in no other way
(`Step.after_eq`), and along a run the changes add up to what is said
(`Step.afterAll_eq`).

A `take` answers with what the detectors it is aimed at hold, one list for each
(`Step.apply_take_eq`).  Nothing is answered twice and nothing is lost: without a
`reset`, all answers for a detector and what it holds in the end are together what it
found (`Step.takenFrom_append_held`).  `Step.life_cycle` puts all of this together.
-/

set_option autoImplicit false

namespace TimeoutAudit

open Php (ParsedFile)

namespace Step

/-! ## What the steps say -/

/-- Whether a step takes out or throws away what the detector at an index holds. -/
def empties (step : Step) (index : Nat) : Bool :=
  match step.action with
  | .take | .reset => step.concerns index
  | .traverse _ | .issues => false

/-- What a step makes a heuristic at an index find: its findings in a source that
parses, if the step is aimed there. -/
def found (step : Step) (heuristic : Heuristic) (index : Nat) : List Finding :=
  match step.action with
  | .traverse source =>
      match Php.parse "" source with
      | .ok file => if step.concerns index then heuristic.findings file.tree else []
      | .error _ => []
  | .take | .reset | .issues => []

/-- A step that looks at findings, or walks a source that does not parse. -/
def IsIdle (step : Step) : Prop :=
  step.action = .issues ∨
    ∃ source error, step.action = .traverse source ∧ Php.parse "" source = .error error

/-- The detectors after a run of steps. -/
def afterAll (steps : List Step) (detectors : List Detector) : List Detector :=
  steps.foldl (fun current step => step.after current) detectors

end Step

/-- What a detector at an index holds after a run: all that it found since the last
step that emptied it, behind what it held at the start if there was no such step. -/
def Detector.held (detector : Detector) (index : Nat) (steps : List Step) : List Finding :=
  (if steps.any (·.empties index) then [] else detector.findings) ++
    (steps.rtakeWhile fun step => !step.empties index).flatMap
      (·.found detector.heuristic index)

theorem Step.empties_iff {step : Step} {index : Nat} :
    step.empties index = true ↔
      (step.action = .take ∨ step.action = .reset) ∧ step.concerns index = true := by
  unfold empties
  cases step.action with
  | traverse source => simp
  | take => simp
  | reset => simp
  | issues => simp

/-- A step that empties a detector makes it find nothing. -/
theorem Step.found_of_empties {step : Step} {index : Nat} (emptied : step.empties index = true)
    (heuristic : Heuristic) : step.found heuristic index = [] := by
  obtain ⟨takes | resets, -⟩ := empties_iff.mp emptied
  · simp only [found, takes]
  · simp only [found, resets]

namespace Detector

theorem held_nil (detector : Detector) (index : Nat) :
    detector.held index [] = detector.findings := by
  simp [held]

/-- One more step: an emptied detector holds nothing of before. -/
theorem held_concat (detector : Detector) (index : Nat) (steps : List Step) (step : Step) :
    detector.held index (steps ++ [step]) =
      (if step.empties index then [] else detector.held index steps) ++
        step.found detector.heuristic index := by
  by_cases emptied : step.empties index = true
  · simp [held, emptied, Step.found_of_empties emptied]
  · simp [held, emptied]

end Detector

namespace Step

/-! ## One step -/

/-- What a step makes of the detector at an index: it is emptied if the step says so,
then what the step makes it find is added. -/
def effect (step : Step) (index : Nat) (detector : Detector) : Detector where
  heuristic := detector.heuristic
  findings := (if step.empties index then [] else detector.findings) ++
    step.found detector.heuristic index

theorem effect_of_traverse (source : List UInt8) (target : Option Nat) (index : Nat)
    (detector : Detector) (file : ParsedFile) (parsed : Php.parse "" source = .ok file) :
    effect ⟨.traverse source, target⟩ index detector =
      if concerns ⟨.traverse source, target⟩ index then detector.traverse file else detector := by
  by_cases meant : concerns ⟨.traverse source, target⟩ index = true
  · simp [effect, empties, found, parsed, meant, Detector.traverse_eq]
  · simp [effect, empties, found, parsed, meant]

/-- A step that is aimed elsewhere, or that is idle, does nothing to a detector. -/
theorem effect_of_idle {step : Step} {index : Nat}
    (idle : step.concerns index = false ∨ step.IsIdle) (detector : Detector) :
    step.effect index detector = detector := by
  obtain ⟨action, target⟩ := step
  have same : empties ⟨action, target⟩ index = false ∧
      found ⟨action, target⟩ detector.heuristic index = [] := by
    rcases idle with elsewhere | rfl | ⟨source, error, rfl, faulty⟩
    · cases action with
      | traverse source =>
          cases parsed : Php.parse "" source with
          | error problem => simp [empties, found, parsed]
          | ok file => simp [empties, found, parsed, elsewhere]
      | take => exact ⟨elsewhere, rfl⟩
      | reset => exact ⟨elsewhere, rfl⟩
      | issues => exact ⟨rfl, rfl⟩
    · exact ⟨rfl, rfl⟩
    · simp [empties, found, faulty]
  simp [effect, same.1, same.2]

/-- **A step does to every detector what its own action says, and nothing else.** -/
theorem after_eq (step : Step) (detectors : List Detector) :
    step.after detectors = detectors.mapIdx step.effect := by
  have unchanged (idle : step.IsIdle) : detectors = detectors.mapIdx step.effect := by
    refine (List.mapIdx_eq_iff.mpr fun index => ?_).symm
    cases detectors[index]? with
    | none => rfl
    | some detector => rw [Option.map_some, effect_of_idle (.inr idle)]
  obtain ⟨action, target⟩ := step
  cases action with
  | traverse source =>
      cases parsed : Php.parse "" source with
      | error problem =>
          simpa only [after, apply, parsed] using
            unchanged (.inr ⟨source, problem, rfl, parsed⟩)
      | ok file =>
          simp only [after, apply, parsed, change,
            ← effect_of_traverse source target _ _ file parsed]
  | take =>
      simp only [after, apply, change, Detector.take]
      congr 1
      funext index detector
      cases meant : concerns ⟨.take, target⟩ index <;> simp [effect, empties, found, meant]
  | reset =>
      simp only [after, apply, change, Detector.reset]
      congr 1
      funext index detector
      cases meant : concerns ⟨.reset, target⟩ index <;> simp [effect, empties, found, meant]
  | issues => exact unchanged (.inl rfl)

/-- A `take` answers with the findings of the detectors that it is aimed at, in their
order, and changes the detectors as every step does. -/
theorem apply_take_eq {step : Step} (takes : step.action = .take) (detectors : List Detector) :
    step.apply detectors =
      .ok (step.after detectors,
        some ((detectors.zipIdx.filter fun entry => step.concerns entry.2).map
          fun entry => entry.1.findings)) := by
  have answer : step.selected detectors =
      (detectors.zipIdx.filter fun entry => step.concerns entry.2).map
        fun entry => entry.1.findings := by
    rw [selected, List.mapIdx_eq_zipIdx_map, List.filterMap_map, ← List.filterMap_eq_map,
      List.filterMap_filter]
    rfl
  simp only [after, apply, takes, answer]

/-! ## Runs -/

theorem afterAll_concat (steps : List Step) (step : Step) (detectors : List Detector) :
    afterAll (steps ++ [step]) detectors = step.after (afterAll steps detectors) := by
  rw [afterAll, List.foldl_append]
  rfl

/-- **After any run, every detector holds what the steps say.** -/
theorem afterAll_eq (steps : List Step) (detectors : List Detector) :
    afterAll steps detectors = detectors.mapIdx fun index detector =>
      ⟨detector.heuristic, detector.held index steps⟩ := by
  induction steps using List.reverseRecOn with
  | nil =>
      show detectors = _
      simp only [Detector.held_nil]
      refine (List.mapIdx_eq_iff.mpr fun index => ?_).symm
      cases detectors[index]? with
      | none => rfl
      | some detector => rfl
  | append_singleton steps step ih =>
      rw [afterAll_concat, ih, after_eq, List.mapIdx_mapIdx]
      simp only [Function.comp_def, effect, Detector.held_concat]

/-- A `take` in a run answers, for every detector that it is aimed at, with what the
steps before it say, and leaves those detectors with nothing. -/
theorem apply_take_afterAll {step : Step} (takes : step.action = .take) (before : List Step)
    (detectors : List Detector) :
    step.apply (afterAll before detectors) =
      .ok (detectors.mapIdx fun index detector =>
          ⟨detector.heuristic,
            if step.concerns index then [] else detector.held index before⟩,
        some ((detectors.zipIdx.filter fun entry => step.concerns entry.2).map
          fun entry => entry.1.held entry.2 before)) := by
  have labelled : (afterAll before detectors).zipIdx =
      detectors.zipIdx.map fun entry =>
        (⟨entry.1.heuristic, entry.1.held entry.2 before⟩, entry.2) := by
    apply List.ext_getElem?
    intro index
    simp [afterAll_eq, Function.comp_def]
  have emptied (index : Nat) : step.empties index = step.concerns index := by
    simp only [empties, takes]
  have nothing (heuristic : Heuristic) (index : Nat) : step.found heuristic index = [] := by
    simp only [found, takes]
  rw [apply_take_eq takes, labelled, List.filter_map, List.map_map, after_eq, afterAll_eq,
    List.mapIdx_mapIdx]
  simp only [Function.comp_def, effect, emptied, nothing, List.append_nil]

/-! ## What takes return -/

/-- What a step returns for the detector at an index.  A `take` aimed at all detectors
answers with a list for each, one aimed at a single detector with its list alone. -/
def returned? (step : Step) (index : Nat) (detectors : List Detector) :
    Option (List Finding) :=
  match step.apply detectors with
  | .ok (_, some answers) =>
      if step.concerns index then
        answers[match step.target with
          | none => index
          | some _ => 0]?
      else none
  | _ => none

/-- All that a run returns for the detector at an index, in the order of the steps. -/
def takenFrom (index : Nat) : List Step → List Detector → List (List Finding)
  | [], _ => []
  | step :: rest, detectors =>
      (step.returned? index detectors).toList ++ takenFrom index rest (step.after detectors)

theorem takenFrom_concat (index : Nat) (steps : List Step) (step : Step)
    (detectors : List Detector) :
    takenFrom index (steps ++ [step]) detectors =
      takenFrom index steps detectors ++
        (step.returned? index (afterAll steps detectors)).toList := by
  induction steps generalizing detectors with
  | nil => simp [takenFrom, afterAll]
  | cons first rest ih =>
      simp only [List.cons_append, takenFrom, ih, List.append_assoc]
      rfl

/-- Among numbered entries, at most one has a given number. -/
theorem filter_zipIdx_eq {α : Type} (entries : List α) (start offset : Nat) :
    (entries.zipIdx start).filter (fun entry => start + offset == entry.2) =
      (entries[offset]?.map fun value => (value, start + offset)).toList := by
  induction entries generalizing start offset with
  | nil => rfl
  | cons first rest ih =>
      cases offset with
      | zero =>
          have later : (rest.zipIdx (start + 1)).filter (fun entry => start == entry.2) = [] := by
            rw [List.filter_eq_nil_iff]
            intro entry member same
            have bound := (List.mem_zipIdx member).1
            simp only [beq_iff_eq] at same
            omega
          simp [later]
      | succ offset =>
          have moved : start + (offset + 1) = start + 1 + offset := by omega
          rw [List.zipIdx_cons, List.filter_cons_of_neg (by simp), moved, ih]
          rfl

/-- A `take` returns the findings of a detector that it is aimed at, and no other step
returns anything for a detector. -/
theorem returned?_cases (step : Step) (index : Nat) :
    (step.action = .take ∧ step.concerns index = true ∧
        ∀ detectors, step.returned? index detectors = detectors[index]?.map Detector.findings) ∨
      (¬ (step.action = .take ∧ step.concerns index = true) ∧
        ∀ detectors, step.returned? index detectors = none) := by
  obtain ⟨action, target⟩ := step
  cases action with
  | traverse source =>
      refine .inr ⟨by simp, fun detectors => ?_⟩
      cases parsed : Php.parse "" source with
      | error problem => simp [returned?, apply, parsed]
      | ok file => simp [returned?, apply, parsed]
  | take =>
      by_cases meant : concerns ⟨.take, target⟩ index = true
      · refine .inl ⟨rfl, meant, fun detectors => ?_⟩
        simp only [returned?, apply_take_eq, meant, if_true]
        cases target with
        | none => simp [concerns, Function.comp_def]
        | some aim =>
            obtain rfl : aim = index := by simpa [concerns] using meant
            have alone := filter_zipIdx_eq detectors 0 aim
            simp only [Nat.zero_add] at alone
            simp only [concerns, Option.all_some, alone]
            cases detectors[aim]? with
            | none => rfl
            | some detector => rfl
      · refine .inr ⟨fun taken => meant taken.2, fun detectors => ?_⟩
        simp [returned?, apply_take_eq, meant]
  | reset => exact .inr ⟨by simp, fun _ => rfl⟩
  | issues => exact .inr ⟨by simp, fun _ => rfl⟩

/-- **Nothing is lost and nothing is returned twice.**  Without a `reset` that is aimed
at a detector, what was taken from it and what it holds at the end are together what it
held at the start and all that it found. -/
theorem takenFrom_append_held (steps : List Step) {detectors : List Detector} {index : Nat}
    {detector : Detector} (present : detectors[index]? = some detector)
    (noReset : ∀ step ∈ steps, step.action = .reset → step.concerns index = false) :
    (takenFrom index steps detectors).flatten ++ detector.held index steps =
      detector.findings ++ steps.flatMap (·.found detector.heuristic index) := by
  induction steps using List.reverseRecOn with
  | nil => simp [takenFrom, Detector.held_nil]
  | append_singleton steps step ih =>
      have before := ih fun earlier member => noReset earlier (List.mem_append_left _ member)
      have holds : (afterAll steps detectors)[index]?.map Detector.findings =
          some (detector.held index steps) := by
        simp [afterAll_eq, present]
      rw [takenFrom_concat, Detector.held_concat, List.flatMap_append, List.flatten_append,
        ← List.append_assoc detector.findings, ← before]
      rcases step.returned?_cases index with ⟨takes, meant, returns⟩ | ⟨other, silent⟩
      · have emptied : step.empties index = true := empties_iff.mpr ⟨.inl takes, meant⟩
        rw [returns, holds, if_pos emptied]
        simp [found_of_empties emptied]
      · -- Only a `reset` could empty the detector without returning what it holds.
        have kept : ¬ step.empties index = true := by
          intro emptied
          obtain ⟨takes | resets, meant⟩ := empties_iff.mp emptied
          · exact other ⟨takes, meant⟩
          · have elsewhere := noReset step (by simp) resets
            simp [meant] at elsewhere
        rw [silent, if_neg kept]
        simp

/-! ## Detectors do not depend on each other -/

theorem getElem?_afterAll (steps : List Step) (detectors : List Detector) (index : Nat) :
    (afterAll steps detectors)[index]? = detectors[index]?.map fun detector =>
      ⟨detector.heuristic, detector.held index steps⟩ := by
  rw [afterAll_eq, List.getElem?_mapIdx]

/-- What a run returns for a detector depends on that detector alone. -/
theorem takenFrom_congr (index : Nat) (steps : List Step) {first second : List Detector}
    (same : first[index]? = second[index]?) :
    takenFrom index steps first = takenFrom index steps second := by
  induction steps generalizing first second with
  | nil => rfl
  | cons step rest ih =>
      have returnsSame : step.returned? index first = step.returned? index second := by
        rcases step.returned?_cases index with ⟨-, -, returns⟩ | ⟨-, silent⟩
        · rw [returns, returns, same]
        · rw [silent, silent]
      have afterSame : (step.after first)[index]? = (step.after second)[index]? := by
        simp only [after_eq, List.getElem?_mapIdx, same]
      rw [takenFrom, takenFrom, returnsSame, ih afterSame]

/-- A detector that was just emptied is as good as new. -/
theorem getElem?_after_emptied {step : Step} {index : Nat} (emptied : step.empties index = true)
    (steps : List Step) (detectors : List Detector) :
    (step.after (afterAll steps detectors))[index]? =
      (detectors.map fun detector => Detector.fresh detector.heuristic)[index]? := by
  rw [← afterAll_concat, getElem?_afterAll, List.getElem?_map]
  simp only [Detector.held_concat, emptied, if_true, found_of_empties emptied, List.append_nil]
  rfl

/-! ## The whole life cycle -/

/-- **The life cycle of detectors, over every run.**  After any run, every detector holds
what it found since it was last emptied.  A `take` then answers with what the detectors it
is aimed at hold, and leaves them with nothing.  A step that is idle or aimed elsewhere
changes nothing in a detector.  Once a detector was emptied, all that is returned for it and
all that it holds is as if it were new.  And without a `reset`, all that was taken from a
detector and what it holds at the end are all that it ever found. -/
theorem life_cycle (detectors : List Detector) (steps : List Step) :
    (afterAll steps detectors = detectors.mapIdx fun index detector =>
      ⟨detector.heuristic, detector.held index steps⟩) ∧
    (∀ step : Step, step.action = .take →
      step.apply (afterAll steps detectors) =
        .ok (detectors.mapIdx fun index detector =>
            ⟨detector.heuristic,
              if step.concerns index then [] else detector.held index steps⟩,
          some ((detectors.zipIdx.filter fun entry => step.concerns entry.2).map
            fun entry => entry.1.held entry.2 steps))) ∧
    (∀ (step : Step) (index : Nat), step.concerns index = false ∨ step.IsIdle →
      (step.after (afterAll steps detectors))[index]? = (afterAll steps detectors)[index]?) ∧
    (∀ (step : Step) (index : Nat) (later : List Step), step.empties index = true →
      let new := detectors.map fun detector => Detector.fresh detector.heuristic
      takenFrom index later (step.after (afterAll steps detectors)) =
          takenFrom index later new ∧
        (afterAll later (step.after (afterAll steps detectors)))[index]? =
          (afterAll later new)[index]?) ∧
    (∀ (index : Nat) (detector : Detector), detectors[index]? = some detector →
      (∀ step ∈ steps, step.action = .reset → step.concerns index = false) →
      (takenFrom index steps detectors).flatten ++ detector.held index steps =
        detector.findings ++ steps.flatMap (·.found detector.heuristic index)) := by
  refine ⟨afterAll_eq steps detectors, ?_, ?_, ?_, ?_⟩
  · intro step takes
    exact apply_take_afterAll takes steps detectors
  · intro step index idle
    rw [after_eq, List.getElem?_mapIdx]
    cases (afterAll steps detectors)[index]? with
    | none => rfl
    | some detector => rw [Option.map_some, effect_of_idle idle]
  · intro step index later emptied
    have asNew := getElem?_after_emptied emptied steps detectors
    refine ⟨takenFrom_congr index later asNew, ?_⟩
    rw [getElem?_afterAll, getElem?_afterAll, asNew]
  · intro index detector present noReset
    exact takenFrom_append_held steps present noReset

/-- A source with one request of cURL. -/
def requestSource : List UInt8 := "<?=curl_exec();".toUTF8.toList

/-- A source that does not parse. -/
def brokenSource : List UInt8 := "<?=(".toUTF8.toList

/-- All detectors walk a request; the first one is emptied and walks it again. -/
def sampleRun : List Step :=
  [⟨.traverse requestSource, none⟩, ⟨.traverse brokenSource, none⟩, ⟨.take, some 0⟩,
    ⟨.traverse requestSource, some 0⟩]

/-- After the sample run one finding was taken from the first detector and it holds
another one.  A `take` returns that one and makes the detector as good as new, and the
second detector is not touched. -/
theorem life_cycle_sample :
    let curl : Detector := .fresh (.curl {})
    let detectors := [curl, curl]
    let taking : Step := ⟨.take, some 0⟩
    let state := afterAll sampleRun detectors
    (takenFrom 0 sampleRun detectors).flatten ++ curl.held 0 sampleRun =
        curl.findings ++ sampleRun.flatMap (·.found curl.heuristic 0) ∧
      (takenFrom 0 sampleRun detectors).map (·.map (·.line)) = [[1]] ∧
      (curl.held 0 sampleRun).map (·.line) = [1] ∧
      (∃ after, taking.apply state = .ok (after, some [curl.held 0 sampleRun])) ∧
      (taking.after state)[0]? = detectors[0]? ∧ (taking.after state)[1]? = state[1]? := by
  intro curl detectors taking state
  obtain ⟨-, takes, idle, asNew, kept⟩ := life_cycle detectors sampleRun
  refine ⟨kept 0 curl rfl ?_, by decide +kernel, by decide +kernel, ⟨_, takes taking rfl⟩,
    (asNew taking 0 [] rfl).2, idle taking 1 (.inl rfl)⟩
  intro step member resets
  simp only [sampleRun, List.mem_cons, List.not_mem_nil, or_false] at member
  rcases member with rfl | rfl | rfl | rfl <;> cases resets

end Step

end TimeoutAudit
