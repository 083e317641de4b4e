import TimeoutAudit.CommandLine.Run
import TimeoutAudit.Proofs.Schedule

/-!
# The exit code of a check

A check can be hindered in five ways, and then it writes no report (`CommandLine.Hindered`).
Otherwise it comes to the result of one audit, which the settings and the path determine
(`CommandLine.Analyzes`), and it reports this result and nothing else (`CommandLine.check_cases`).

The exit code tells these apart: it is 2 for a check that was hindered, and says of any other
whether the result gives cause for alarm (`CommandLine.check_exitCode`).  The form of the report has
no say in it; but a report in JSON starts with the number of issues, so that the exit code can be
read off it (`Report.Json.statedTotal?_text`).
-/

set_option autoImplicit false

namespace TimeoutAudit

/-! ## Jobs -/

/-- An audit is the same for every number of jobs, down to its log. -/
theorem Audit.audit_jobs (settings : Settings) (jobs otherJobs : Nat) (tree : FileTree)
    (root : OsText) : audit settings jobs tree root = audit settings otherJobs tree root := by
  simp only [audit, auditFiles, reports_eq_apart]

/-! ## The total of a report -/

namespace Report.Json

/-- What stands in front of the total. -/
def beforeTotal : List Char := "\x7b\n  \"summary\": \x7b\n    \"total\": ".toList

/-- The number that stands as the total of the summary, at the head of a report. -/
def statedTotal? (report : String) : Option Nat :=
  if beforeTotal.isPrefixOf report.toList then
    some (Nat.ofDigitChars 10
      ((report.toList.drop beforeTotal.length).takeWhile Char.isDigit) 0)
  else none

/-- A report starts with its total, and a comma follows. -/
theorem exists_toList_text (result : AuditResult) :
    ∃ rest, (text result).toList =
      beforeTotal ++ (Nat.toDigits 10 result.issues.length ++ ',' :: rest) := by
  simp only [text, report, summary, JsonValue.render, JsonValue.textAt, JsonValue.fieldsText,
    String.toList_append, String.toList_ofList, List.cons_append, List.append_assoc,
    List.nil_append]
  exact ⟨_, rfl⟩

/-- **The total of a report is the number of its issues.** -/
theorem statedTotal?_text (result : AuditResult) :
    statedTotal? (text result) = some result.issues.length := by
  obtain ⟨rest, split⟩ := exists_toList_text result
  have starts : beforeTotal.isPrefixOf (text result).toList = true := by
    rw [split, List.isPrefixOf_iff_prefix]
    exact List.prefix_append _ _
  have digits : ((text result).toList.drop beforeTotal.length).takeWhile Char.isDigit =
      Nat.toDigits 10 result.issues.length := by
    rw [split, List.drop_left, List.takeWhile_append_of_pos fun digit member =>
      Nat.isDigit_of_mem_toDigits (by decide) (by decide) member]
    exact List.append_nil _
  rw [statedTotal?, if_pos starts, digits, Nat.ofDigitChars_toDigits (by decide) (by decide)]

end Report.Json

namespace CommandLine

/-! ## What a check depends on -/

/-- Settings come from the file that is named or found; without one they are built in. -/
inductive Loads (tree : FileTree) (named : Option String) : Settings → Prop where
  | builtIn (none : settingsPath? tree named = none) : Loads tree named {}
  | file (path : OsText) (settings : Settings) (found : settingsPath? tree named = some path)
      (loaded : loadFile tree path = .ok settings) : Loads tree named settings

/-- Why a check cannot be carried out. -/
inductive Hindered (tree : FileTree) (arguments : CheckArguments) : Prop where
  | format (notPretty : arguments.format ≠ "pretty") (notJson : arguments.format ≠ "json")
  | unloadable (path : OsText) (found : settingsPath? tree arguments.config = some path)
      (error : LoadError) (failed : loadFile tree path = .error error)
  | defective (settings : Settings) (loads : Loads tree arguments.config settings)
      (defect : settings.defect? ≠ none)
  | unreachable (reason : OsError) (failed : tree.resolve arguments.path = .error reason)
  | unaudited (settings : Settings) (loads : Loads tree arguments.config settings)
      (location : Location) (reached : tree.resolve arguments.path = .ok location)
      (error : Audit.CollectError)
      (failed : Audit.audit settings arguments.jobs tree (FileTree.absolutePath location) =
        .error error)

/-- A check comes to a result: usable settings are loaded, its path leads somewhere, and the audit
there has this result. -/
structure Analyzes (tree : FileTree) (arguments : CheckArguments) (settings : Settings)
    (location : Location) (run : Audit.Run) : Prop where
  loads : Loads tree arguments.config settings
  usable : settings.defect? = none
  reached : tree.resolve arguments.path = .ok location
  audited : Audit.audit settings arguments.jobs tree (FileTree.absolutePath location) = .ok run

/-- The result of a check gives cause for alarm: an issue that nothing silences or, if this is
asked for, a file that was skipped. -/
def Alarming (failOnSkipped : Bool) (result : AuditResult) : Prop :=
  result.issues ≠ [] ∨ (failOnSkipped = true ∧ result.skipped ≠ [])

variable {tree : FileTree} {arguments other : CheckArguments} {settings : Settings}
  {location : Location} {run : Audit.Run}

theorem Loads.unique {named : Option String} {first second : Settings}
    (one : Loads tree named first) (two : Loads tree named second) : first = second := by
  cases one with
  | builtIn none =>
      cases two with
      | builtIn _ => rfl
      | file path settings found _ => rw [none] at found; cases found
  | file path settings found loaded =>
      cases two with
      | builtIn none => rw [none] at found; cases found
      | file otherPath otherSettings otherFound otherLoaded =>
          obtain rfl := Option.some.inj (found.symm.trans otherFound)
          exact Except.ok.inj (loaded.symm.trans otherLoaded)

theorem builtIn_usable : ({} : Settings).defect? = none := by decide

/-- Settings are loaded and can be used exactly if a check gets them. -/
theorem loadSettings_eq_ok_iff {named : Option String} :
    loadSettings tree (settingsPath? tree named) = .ok settings ↔
      Loads tree named settings ∧ settings.defect? = none := by
  constructor
  · intro loaded
    unfold loadSettings at loaded
    split at loaded
    · next none =>
        cases loaded
        exact ⟨.builtIn none, builtIn_usable⟩
    · next path found =>
        split at loaded
        · cases loaded
        · next read =>
            split at loaded
            · cases loaded
            · next usable =>
                cases loaded
                exact ⟨.file path _ found read, usable⟩
  · rintro ⟨loads, usable⟩
    cases loads with
    | builtIn none => rw [none]; rfl
    | file path _ found loaded => simp only [loadSettings, found, loaded, usable]

/-- A check that gets no settings is hindered. -/
theorem hindered_of_loadSettings {message : String}
    (failed : loadSettings tree (settingsPath? tree arguments.config) = .error message) :
    Hindered tree arguments := by
  unfold loadSettings at failed
  split at failed
  · cases failed
  · next path found =>
      split at failed
      · next error unread => exact .unloadable path found error unread
      · next read =>
          split at failed
          · next defect unusable =>
              refine .defective _ (.file path _ found read) ?_
              rw [unusable]
              exact Option.some_ne_none defect
          · cases failed

namespace Analyzes

/-- A check that comes to a result is not hindered, unless it has no form to report in. -/
theorem not_hindered (analyzes : Analyzes tree arguments settings location run)
    (format : arguments.format = "pretty" ∨ arguments.format = "json") :
    ¬ Hindered tree arguments := by
  intro hindered
  cases hindered with
  | format notPretty notJson => exact format.elim notPretty notJson
  | unloadable path found error failed =>
      cases analyzes.loads with
      | builtIn none => rw [none] at found; cases found
      | file _ _ otherFound loaded =>
          obtain rfl := Option.some.inj (found.symm.trans otherFound)
          rw [failed] at loaded
          cases loaded
  | defective other loads defect =>
      obtain rfl := loads.unique analyzes.loads
      exact defect analyzes.usable
  | unreachable reason failed =>
      rw [analyzes.reached] at failed
      cases failed
  | unaudited other loads place reached error failed =>
      obtain rfl := loads.unique analyzes.loads
      obtain rfl := Except.ok.inj (reached.symm.trans analyzes.reached)
      rw [analyzes.audited] at failed
      cases failed

/-- Checks with the same settings file and the same path come to the same result, however many
jobs they have. -/
theorem same_run (analyzes : Analyzes tree arguments settings location run)
    {otherSettings : Settings} {otherLocation : Location} {otherRun : Audit.Run}
    (also : Analyzes tree other otherSettings otherLocation otherRun)
    (path : other.path = arguments.path) (config : other.config = arguments.config) :
    otherRun = run := by
  obtain ⟨loads, -, reached, audited⟩ := also
  rw [config] at loads
  rw [path] at reached
  obtain rfl := loads.unique analyzes.loads
  obtain rfl := Except.ok.inj (reached.symm.trans analyzes.reached)
  rw [Audit.audit_jobs _ other.jobs arguments.jobs] at audited
  exact Except.ok.inj (audited.symm.trans analyzes.audited)

/-- The number of jobs and the form of the report have no part in the audit. -/
theorem transfer (analyzes : Analyzes tree arguments settings location run)
    (path : other.path = arguments.path) (config : other.config = arguments.config) :
    Analyzes tree other settings location run where
  loads := config ▸ analyzes.loads
  usable := analyzes.usable
  reached := path ▸ analyzes.reached
  audited := by rw [Audit.audit_jobs _ other.jobs arguments.jobs, analyzes.audited]

end Analyzes

/-! ## The command -/

theorem Format.ofName?_eq_none_iff {name : String} :
    Format.ofName? name = none ↔ name ≠ "pretty" ∧ name ≠ "json" := by
  unfold Format.ofName?
  split
  · next pretty => simp_all
  · split
    · next json => simp_all
    · simp_all

theorem exitCodeOf_eq_one_iff (failOnSkipped : Bool) (result : AuditResult) :
    exitCodeOf failOnSkipped result = 1 ↔ Alarming failOnSkipped result := by
  unfold exitCodeOf Alarming AuditResult.hasIssues
  split <;> simp_all [exitFailed, exitSuccess]

theorem exitCodeOf_eq_zero_iff (failOnSkipped : Bool) (result : AuditResult) :
    exitCodeOf failOnSkipped result = 0 ↔ ¬ Alarming failOnSkipped result := by
  rw [← exitCodeOf_eq_one_iff]
  unfold exitCodeOf
  split <;> simp [exitFailed, exitSuccess]

/-- **What a check does.**  It is hindered, has the code for errors and writes nothing to the
standard output, or it comes to a result, reports it, and has a code that only depends on the
result. -/
theorem check_cases (tree : FileTree) (colour : Bool) (arguments : CheckArguments) :
    (Hindered tree arguments ∧ (check tree colour arguments).exitCode = exitError ∧
      (check tree colour arguments).stdout = "") ∨
    ∃ format settings location run, Format.ofName? arguments.format = some format ∧
      Analyzes tree arguments settings location run ∧
      (check tree colour arguments).exitCode = exitCodeOf arguments.failOnSkipped run.result ∧
      (check tree colour arguments).stdout =
        render tree colour arguments.showSuppressed run.result format := by
  unfold check
  split
  · next none =>
      obtain ⟨notPretty, notJson⟩ := Format.ofName?_eq_none_iff.mp none
      exact .inl ⟨.format notPretty notJson, rfl, rfl⟩
  · next format named =>
      dsimp only
      split
      · next message failed => exact .inl ⟨hindered_of_loadSettings failed, rfl, rfl⟩
      · next settings loaded =>
          obtain ⟨loads, usable⟩ := loadSettings_eq_ok_iff.mp loaded
          split
          · next reason failed => exact .inl ⟨.unreachable reason failed, rfl, rfl⟩
          · next location reached =>
              unfold checkLocation
              split
              · next error failed =>
                  exact .inl ⟨.unaudited settings loads location reached error failed, rfl, rfl⟩
              · next run audited =>
                  exact .inr ⟨format, settings, location, run, named,
                    ⟨loads, usable, reached, audited⟩, rfl, rfl⟩

theorem exitCodeOf_ne_two (failOnSkipped : Bool) (result : AuditResult) :
    exitCodeOf failOnSkipped result ≠ 2 := by
  unfold exitCodeOf
  split <;> simp [exitFailed, exitSuccess]

theorem format_of_ofName? {name : String} {format : Format}
    (named : Format.ofName? name = some format) : name = "pretty" ∨ name = "json" := by
  refine Decidable.byContradiction fun neither => ?_
  rw [Format.ofName?_eq_none_iff.mpr (not_or.mp neither)] at named
  cases named

/-- The code for errors means that the check was hindered. -/
theorem check_eq_two_iff (tree : FileTree) (colour : Bool) (arguments : CheckArguments) :
    (check tree colour arguments).exitCode = 2 ↔ Hindered tree arguments := by
  rcases check_cases tree colour arguments with
    ⟨hindered, code, -⟩ | ⟨format, settings, location, run, named, analyzes, code, -⟩
  · exact ⟨fun _ => hindered, fun _ => code⟩
  · rw [code]
    constructor
    · intro two
      exact absurd two (exitCodeOf_ne_two _ _)
    · intro hindered
      exact absurd hindered (analyzes.not_hindered (format_of_ofName? named))

/-- Checks with the same settings file, path and attitude to skipped files have the same code,
whatever their forms of report are. -/
theorem check_exitCode_eq (colour otherColour : Bool)
    (format : arguments.format = "pretty" ∨ arguments.format = "json")
    (otherFormat : other.format = "pretty" ∨ other.format = "json")
    (path : other.path = arguments.path) (config : other.config = arguments.config)
    (failOnSkipped : other.failOnSkipped = arguments.failOnSkipped) :
    (check tree otherColour other).exitCode = (check tree colour arguments).exitCode := by
  rcases check_cases tree colour arguments with
    ⟨hindered, code, -⟩ | ⟨_, settings, location, run, -, analyzes, code, -⟩
  · rcases check_cases tree otherColour other with
      ⟨-, otherCode, -⟩ | ⟨_, _, _, _, -, otherAnalyzes, -, -⟩
    · rw [code, otherCode]
    · exact absurd hindered ((otherAnalyzes.transfer path.symm config.symm).not_hindered format)
  · rcases check_cases tree otherColour other with
      ⟨otherHindered, -, -⟩ | ⟨_, _, _, otherRun, -, otherAnalyzes, otherCode, -⟩
    · exact absurd otherHindered ((analyzes.transfer path config).not_hindered otherFormat)
    · rw [code, otherCode, failOnSkipped, analyzes.same_run otherAnalyzes path config]

/-- A check in JSON fails exactly if its report states a total above zero. -/
theorem check_json_iff (colour : Bool) (json : arguments.format = "json")
    (lenient : arguments.failOnSkipped = false) :
    (check tree colour arguments).exitCode = 1 ↔
      ∃ total, Report.Json.statedTotal? (check tree colour arguments).stdout = some total ∧
        0 < total := by
  rcases check_cases tree colour arguments with
    ⟨-, code, silent⟩ | ⟨format, _, _, run, named, -, code, stdout⟩
  · rw [code, silent]
    constructor
    · intro two
      cases two
    · rintro ⟨total, stated, -⟩
      cases stated
  · rw [json] at named
    obtain rfl : format = .json := (Option.some.inj named).symm
    rw [code, stdout, exitCodeOf_eq_one_iff, render, Report.Json.statedTotal?_text]
    simp [Alarming, lenient, List.length_pos_iff]

/-- **The contract of the exit code.**  A check leaves the file tree as it is.  Its code is 2
exactly if it is hindered, and then it writes nothing to the standard output.  Otherwise it comes to
the result of an audit, and the code is 1 if the result gives cause for alarm and 0 if it does not.
Among checks that have a form of report, the code depends on the tree, the path, the settings file
and the attitude to skipped files only; and if skipped files do not count, the code of a check in
JSON is 1 exactly if the report states a total above zero. -/
theorem check_exitCode (tree : FileTree) (colour : Bool) (arguments : CheckArguments) :
    let left := CommandLine.run tree colour (.check arguments)
    let outcome := left.2
    left.1 = tree ∧
      (outcome.exitCode = 2 ↔ Hindered tree arguments) ∧
      (Hindered tree arguments → outcome.stdout = "") ∧
      (¬ Hindered tree arguments → ∃ settings location audited,
        Analyzes tree arguments settings location audited ∧
        (outcome.exitCode = 1 ↔ Alarming arguments.failOnSkipped audited.result) ∧
        (outcome.exitCode = 0 ↔ ¬ Alarming arguments.failOnSkipped audited.result)) ∧
      (∀ (otherColour : Bool) (invocation : Invocation) (other : CheckArguments),
        invocation.command = .check other →
        (arguments.format = "pretty" ∨ arguments.format = "json") →
        (other.format = "pretty" ∨ other.format = "json") →
        other.path = arguments.path → other.config = arguments.config →
        other.failOnSkipped = arguments.failOnSkipped →
        (CommandLine.run tree otherColour invocation.command).2.exitCode = outcome.exitCode) ∧
      (arguments.format = "json" → arguments.failOnSkipped = false →
        (outcome.exitCode = 1 ↔
          ∃ total, Report.Json.statedTotal? outcome.stdout = some total ∧ 0 < total)) := by
  refine ⟨rfl, check_eq_two_iff tree colour arguments, ?_, ?_, ?_, check_json_iff colour⟩
  · intro hindered
    rcases check_cases tree colour arguments with ⟨-, -, silent⟩ | ⟨_, _, _, _, named, analyzes, -⟩
    · exact silent
    · exact absurd hindered (analyzes.not_hindered (format_of_ofName? named))
  · intro free
    rcases check_cases tree colour arguments with
      ⟨hindered, -⟩ | ⟨_, settings, location, audited, -, analyzes, code, -⟩
    · exact absurd hindered free
    · refine ⟨settings, location, audited, analyzes, ?_, ?_⟩
      · exact code ▸ exitCodeOf_eq_one_iff arguments.failOnSkipped audited.result
      · exact code ▸ exitCodeOf_eq_zero_iff arguments.failOnSkipped audited.result
  · intro otherColour invocation other command format otherFormat path config failOnSkipped
    rw [command]
    exact check_exitCode_eq colour otherColour format otherFormat path config failOnSkipped

/-- The sample, checked for JSON: one issue is left, so the code is 1 and the report states a total
above zero; the same holds of a report for readers with many jobs.  An unknown form of report has
the code 2 and no output. -/
theorem check_exitCode_sample :
    let plain : CheckArguments := { path := "a.php", format := "json" }
    let other : CheckArguments := { path := "a.php", jobs := 4, showSuppressed := true }
    let unknown : CheckArguments := { path := "a.php", format := "xml" }
    (check Audit.sampleTree false plain).exitCode = 1 ∧
      (∃ total, Report.Json.statedTotal? (check Audit.sampleTree false plain).stdout = some total ∧
        0 < total) ∧
      (check Audit.sampleTree true other).exitCode = 1 ∧
      (check Audit.sampleTree false unknown).exitCode = 2 ∧
      (check Audit.sampleTree false unknown).stdout = "" := by
  intro plain other unknown
  obtain ⟨-, -, -, -, alike, stated⟩ := check_exitCode Audit.sampleTree false plain
  obtain ⟨-, two, silent, -⟩ := check_exitCode Audit.sampleTree false unknown
  have hindered : Hindered Audit.sampleTree unknown := .format (by decide) (by decide)
  have one : (check Audit.sampleTree false plain).exitCode = 1 := by decide +kernel
  refine ⟨one, (stated rfl rfl).mp one, ?_, two.mpr hindered, silent hindered⟩
  exact (alike true ⟨true, .check other⟩ other rfl (.inr rfl) (.inl rfl) rfl rfl rfl).trans one

end CommandLine

end TimeoutAudit
