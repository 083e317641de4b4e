import TimeoutAudit.Proofs.Audit.Added
import TimeoutAudit.Proofs.CommandLine.Check
import TimeoutAudit.Proofs.FileTree.AbsolutePath
import TimeoutAudit.Proofs.Settings.Template

/-!
# A check after an init

An init without options writes the template into the working directory, where the next check finds
it.  From then on the file stays what it is whatever commands are run
(`CommandLine.read_runAll`), so that another init has nothing to do.

The settings that a check finds in it differ from the built-in ones in one pattern.  A check of a
directory therefore says what it said before the init, in the same order, except about the files
that this pattern leaves out (`CommandLine.check_after_init`).
-/

set_option autoImplicit false

namespace TimeoutAudit.CommandLine

open FileTree (Keeps Vacant withFile absolutePath pathBelow FileName)

variable {tree : FileTree}

/-! ## Commands one after the other -/

/-- The tree that is left by commands that are run in turn. -/
def runAll (tree : FileTree) (colour : Bool) (commands : List Command) : FileTree :=
  commands.foldl (fun before command => (run before colour command).1) tree

theorem prepare_keeps (tree : FileTree) (output : OsText) : Keeps tree (prepare tree output).1 := by
  unfold prepare
  split
  · exact .refl tree
  · exact FileTree.createDirectories_keeps tree _

/-- An init keeps what stands in a tree, but for the content of a file that it writes over. -/
theorem init_keeps (tree : FileTree) (arguments : InitArguments) :
    Keeps tree (init tree arguments).1 := by
  have prepared := prepare_keeps tree arguments.output
  fun_cases init tree arguments with
  | case1 => exact .refl tree
  | case2 output unseen partly error failed =>
      rw [failed] at prepared
      exact prepared
  | case3 output unseen ready done =>
      rw [done] at prepared
      exact prepared
  | case4 output unseen ready done written ok =>
      rw [done] at prepared
      exact prepared.trans (FileTree.writeFile_keeps ok)

/-- A file that holds the template still does after an init. -/
theorem read_init {path : OsText} (arguments : InitArguments)
    (template : tree.read path = .ok templateBytes) :
    FileTree.read (init tree arguments).1 path = .ok templateBytes := by
  obtain ⟨location, leads, file⟩ := FileTree.read_eq_ok_iff.mp template
  refine FileTree.read_eq_ok_iff.mpr ⟨location, (init_keeps tree arguments).resolve_eq leads,
    FileTree.view_eq_file_iff.mpr ?_⟩
  -- The file may be written over, but what is written is the template.
  by_cases overwrites : Overwrites tree arguments.output location
  · exact (init_overwritten overwrites).2
  · exact init_kept (FileTree.view_eq_file_iff.mp file) overwrites

/-- **A file that holds the template keeps it,** whatever commands are run. -/
theorem read_runAll {path : OsText} (colour : Bool) (commands : List Command)
    (template : tree.read path = .ok templateBytes) :
    (runAll tree colour commands).read path = .ok templateBytes := by
  induction commands generalizing tree with
  | nil => exact template
  | cons command rest ih =>
      refine ih ?_
      cases command with
      | check arguments => exact template
      | init arguments => exact read_init arguments template

/-- An init has nothing to do where its output is there. -/
theorem init_of_read {path : String} {content : List UInt8}
    (present : tree.read path = .ok content) :
    (init tree ⟨path⟩).1 = tree ∧ (init tree ⟨path⟩).2.exitCode = exitError := by
  obtain ⟨location, leads, file⟩ := FileTree.read_eq_ok_iff.mp present
  have seen := hasPath_of_resolve leads (FileTree.view_eq_file_iff.mp file)
  rw [init]
  simp only [seen, if_true, and_self]

/-! ## The settings file -/

theorem fileName_settingsNames : ∀ name ∈ settingsNames, FileName (Text.bytes name) := by
  decide +kernel

theorem default_mem : "timeoutguard.yaml" ∈ settingsNames := List.mem_cons_self

/-- No settings are found in a directory that has none. -/
theorem discover?_eq_none (inside : tree.view tree.here = some .directory)
    (unset : ∀ name ∈ settingsNames, tree.view (tree.here ++ [Text.bytes name]) = none) :
    discover? tree = none := by
  refine List.find?_eq_none.mpr fun path member isFile => ?_
  obtain ⟨name, named, rfl⟩ := List.mem_map.mp member
  obtain ⟨location, content, leads, -⟩ := FileTree.isFile_iff.mp isFile
  have fileName := fileName_settingsNames name named
  have seen := FileTree.isSome_view_of_resolve_join (FileTree.resolve_here inside)
    fileName.isComponent fileName.moves fileName.down leads
  rw [unset name named] at seen
  cases seen

/-- Settings that stand under the first name are found and loaded. -/
theorem loads_of_view {content : List UInt8} {text : String} {settings : Settings}
    (seen : tree.view (tree.here ++ [Text.bytes "timeoutguard.yaml"]) = some (.file content))
    (isText : Glyph.text? (Glyph.decode content) = some text)
    (decoded : Settings.ofText text = .ok settings) : Loads tree none settings := by
  have leads := FileTree.resolve_join_plain (FileTree.resolve_here (FileTree.view_of_below seen))
    (fileName_settingsNames _ default_mem) seen (by simp)
  have found : discover? tree =
      some (Path.join Path.here (Text.bytes "timeoutguard.yaml")) :=
    List.find?_cons_of_pos (FileTree.isFile_iff.mpr ⟨_, content, leads, seen⟩)
  refine .file _ settings found ?_
  rw [loadFile, FileTree.read_eq_ok_iff.mpr ⟨_, leads, seen⟩]
  simp only [isText, decoded]

/-- What a successful init without options leaves: the tree with the template in the working
directory. -/
theorem init_default (unset : tree.view (tree.here ++ [Text.bytes "timeoutguard.yaml"]) = none)
    (success : (init tree {}).2.exitCode = exitSuccess) :
    Vacant tree tree.here "timeoutguard.yaml" ∧
      (init tree {}).1 = tree.withFile tree.here "timeoutguard.yaml" templateBytes := by
  rcases init_cases tree {} with ⟨failure, -⟩ | ⟨-, -, -, ok⟩
  · rw [success] at failure
    cases failure
  · have needed : neededDirectory? "timeoutguard.yaml" = none := by decide +kernel
    rw [prepare, needed] at ok
    exact FileTree.writeFile_name (fileName_settingsNames _ default_mem) unset ok

/-- The template is there after an init. -/
theorem read_default (unset : tree.view (tree.here ++ [Text.bytes "timeoutguard.yaml"]) = none)
    (success : (init tree {}).2.exitCode = exitSuccess) :
    FileTree.read (init tree {}).1 "timeoutguard.yaml" = .ok templateBytes := by
  obtain ⟨vacant, left⟩ := init_default unset success
  have file := vacant.view_place templateBytes
  have leads := FileTree.resolve_name (fileName_settingsNames _ default_mem) file (by simp)
  rw [left]
  exact FileTree.read_eq_ok_iff.mpr ⟨_, leads, file⟩

/-! ## Reports -/

/-- A check comes to a result, writes it out, and has its exit code. -/
structure Reports (tree : FileTree) (colour : Bool) (arguments : CheckArguments)
    (result : AuditResult) : Prop where
  comesTo : ∃ settings location run, Analyzes tree arguments settings location run ∧
    run.result = result
  written : ∃ format, Format.ofName? arguments.format = some format ∧
    (check tree colour arguments).stdout =
      render tree colour arguments.showSuppressed result format
  exitCode : (check tree colour arguments).exitCode = exitCodeOf arguments.failOnSkipped result

theorem Analyzes.reports {arguments : CheckArguments} {settings : Settings} {location : Location}
    {run : Audit.Run} (analyzes : Analyzes tree arguments settings location run) (colour : Bool)
    (format : arguments.format = "pretty" ∨ arguments.format = "json") :
    Reports tree colour arguments run.result := by
  rcases check_cases tree colour arguments with
    ⟨hindered, -⟩ | ⟨form, _, _, same, named, also, code, stdout⟩
  · exact absurd hindered (analyzes.not_hindered format)
  · obtain rfl := analyzes.same_run also rfl rfl
    exact ⟨⟨_, _, _, analyzes, rfl⟩, ⟨form, named, stdout⟩, code⟩

/-! ## Installed packages -/

/-- Whether the pattern of the template matches what the path of a file has below the root, both as
they are shown.  The pattern is plain text, so it matches a path if and only if it matches what is
shown for it (`matchesPath_displayed`). -/
def isPackaged (root file : String) : Bool :=
  (Path.below? root file).any fun relative =>
    (Glob.tokens Settings.packagesPattern).toOption.any fun tokens =>
      Glob.matchesPath tokens relative

/-- The pattern of the template matches what is shown for a path if it matches the path. -/
theorem matchesPath_displayed (path : OsText) :
    Glob.matchesPath Settings.packagesTokens (Path.displayed path) =
      Glob.matchesPath Settings.packagesTokens path := by
  rw [Bool.eq_iff_iff, Settings.matchesPath_packagesTokens_iff,
    Settings.matchesPath_packagesTokens_iff]
  exact Text.bytes_prefix_shown_iff (by decide)

/-- What is audited below the path of a directory is left out now if it is packaged. -/
theorem matchesPath_eq_isPackaged {location : Location} {names : List OsText}
    (wellNamed : tree.WellNamed) (inside : tree.view location = some .directory)
    (chosen : names ∈ Audit.chosenNames ⟨[]⟩ tree (absolutePath location) location) :
    PathFilter.matchesPath ⟨[Settings.packagesTokens]⟩ (Audit.relativePath names) =
      isPackaged (decodeLossy (absolutePath location))
        (decodeLossy (pathBelow (absolutePath location) names)) := by
  have leads := FileTree.resolve_absolutePath wellNamed inside
  obtain ⟨components, listed⟩ := (Audit.mem_filter_isChosen_iff wellNamed leads inside).mp chosen
  have above : ∀ name ∈ location, FileName name :=
    wellNamed location (FileTree.mem_locations_of_view inside)
  have allComponents : ∀ name ∈ location ++ names, Path.IsComponent name := by
    intro name member
    rcases List.mem_append.mp member with inFront | below
    · exact (above name inFront).isComponent
    · exact components name below
  have moving : Path.Moving (location ++ names) := by
    intro name member
    rcases List.mem_append.mp member with inFront | below
    · exact (above name inFront).moves
    · have visible := Audit.not_isHidden_iff.mpr (listed.visible name below)
      exact (FileTree.moves_of_visible (components name below) visible).1
  have named : names ≠ [] := by
    rintro rfl
    obtain ⟨stem, -, none⟩ := listed.extension
    cases none
  have below := FileTree.below?_displayed allComponents moving named
  rw [Path.displayed, Path.displayed] at below
  rw [isPackaged, below, Settings.tokens_packagesPattern]
  simp [PathFilter.matchesPath, Except.toOption, matchesPath_displayed]

/-! ## The check -/

/-- A check of a directory, without settings and with the template beside it. -/
theorem check_after_init (wellNamed : tree.WellNamed)
    (unset : ∀ name ∈ settingsNames, tree.entry? (tree.here ++ [Text.bytes name]) = none)
    (success : (init tree {}).2.exitCode = exitSuccess) (colour : Bool)
    {arguments : CheckArguments} (config : arguments.config = none)
    (format : arguments.format = "pretty" ∨ arguments.format = "json")
    (isDirectory : tree.isDirectory arguments.path = true) :
    ∃ location before after, tree.resolve arguments.path = .ok location ∧
      Reports tree colour arguments before ∧
      Reports (init tree {}).1 colour arguments after ∧
      before.Omits (isPackaged (decodeLossy (absolutePath location))) after := by
  have unseen : ∀ name ∈ settingsNames, tree.view (tree.here ++ [Text.bytes name]) = none :=
    fun name member => by rw [FileTree.view_eq, unset name member, Option.map_none]
  obtain ⟨vacant, left⟩ := init_default (unseen _ default_mem) success
  obtain ⟨location, leads, inside⟩ := FileTree.isDirectory_iff.mp isDirectory
  -- Under a link with the name of a source, the template itself is audited now; it is plain text.
  obtain ⟨before, after, audited, auditedNow, omits⟩ :=
    Audit.audit_withFile vacant wellNamed (fileName_settingsNames _ default_mem)
      (FileTree.resolve_absolutePath wellNamed inside) inside arguments.jobs
      Settings.untagged_template (show ({} : Settings).exclusion = .ok ⟨[]⟩ from rfl)
      Settings.starting_exclusion Settings.starting_detectors
      fun names chosen => matchesPath_eq_isPackaged wellNamed inside chosen
  have analyzes : Analyzes tree arguments {} location before := {
    loads := config ▸ .builtIn (discover?_eq_none vacant.inside unseen)
    usable := builtIn_usable
    reached := leads
    audited := audited }
  have analyzesNow : Analyzes (init tree {}).1 arguments .starting location after := by
    rw [left]
    exact {
      loads := config ▸ loads_of_view (vacant.view_place templateBytes)
        Settings.text?_templateBytes Settings.ofText_template
      usable := Settings.starting_usable
      reached := (vacant.keeps templateBytes).resolve_eq leads
      audited := auditedNow }
  exact ⟨location, before.result, after.result, leads, analyzes.reports colour format,
    analyzesNow.reports colour format, omits⟩

/-- **A check after an init.**  In a working directory without settings, a successful init without
options writes the template.  Whatever commands are run then, the file is still the template, and
another init fails and leaves the tree as it is.  Every check of a directory that names no settings
reports the issues, the suppressed issues and the skipped files that it reported before the init, in
the same order, but for those of files that are packaged. -/
theorem init_then_check (tree : FileTree) (wellNamed : tree.WellNamed)
    (unset : ∀ name ∈ settingsNames, tree.entry? (tree.here ++ [Text.bytes name]) = none)
    (success : (init tree {}).2.exitCode = 0) :
    let left := (init tree {}).1
    left.read "timeoutguard.yaml" = .ok templateBytes ∧
      (∀ (colour : Bool) (commands : List Command),
        let later := runAll left colour commands
        later.read "timeoutguard.yaml" = .ok templateBytes ∧
          (init later {}).1 = later ∧ (init later {}).2.exitCode = 2) ∧
      ∀ (colour : Bool) (arguments : CheckArguments), arguments.config = none →
        (arguments.format = "pretty" ∨ arguments.format = "json") →
        tree.isDirectory arguments.path = true →
        ∃ location before after, tree.resolve arguments.path = .ok location ∧
          Reports tree colour arguments before ∧ Reports left colour arguments after ∧
          after.issues = before.issues.filter (fun issue =>
            !isPackaged (decodeLossy (absolutePath location)) issue.file) ∧
          after.suppressed = before.suppressed.filter (fun entry =>
            !isPackaged (decodeLossy (absolutePath location)) entry.issue.file) ∧
          after.skipped = before.skipped.filter fun skipped =>
            !isPackaged (decodeLossy (absolutePath location)) skipped.file := by
  have absent : tree.view (tree.here ++ [Text.bytes "timeoutguard.yaml"]) = none := by
    rw [FileTree.view_eq, unset _ default_mem, Option.map_none]
  have template := read_default absent success
  refine ⟨template, fun colour commands => ?_, fun colour arguments config format isDirectory => ?_⟩
  · have still := read_runAll colour commands template
    exact ⟨still, init_of_read still⟩
  · obtain ⟨location, before, after, leads, reported, reportedNow, omits⟩ :=
      check_after_init wellNamed unset success colour config format isDirectory
    exact ⟨location, before, after, leads, reported, reportedNow, omits.issues, omits.suppressed,
      omits.skipped⟩

/-- A project with a file of its own, an installed package, and a link to settings that are not
there yet but whose name is that of a source. -/
def project : FileTree where
  root := .directory [("p", .directory [
    ("a.php", .file "<?php\ncurl_exec($ch);\n".toUTF8.toList),
    ("link.php", .link "timeoutguard.yaml"),
    ("vendor", .directory [("b.php", .file "<?php\ncurl_exec($ch);\n".toUTF8.toList)])])]
  here := ["p"]

/-- The issue of the package is gone after the init, and that of the other file is not.  The
template can be written over, but only by the template. -/
theorem init_then_check_project :
    let left := (init project {}).1
    let again : Command := .init ⟨"new/../timeoutguard.yaml"⟩
    FileTree.read (runAll left false [again]) "timeoutguard.yaml" = .ok templateBytes ∧
      (init (runAll left false [again]) {}).2.exitCode = 2 ∧
      ∃ before after, Reports project false { path := "." } before ∧
        Reports left false { path := "." } after ∧
        (∃ issue ∈ before.issues, issue.file = "/p/vendor/b.php") ∧
        (∀ issue ∈ after.issues, issue.file ≠ "/p/vendor/b.php") ∧
        ∃ issue ∈ after.issues, issue.file = "/p/a.php" := by
  intro left again
  have wellNamed : project.WellNamed := by decide +kernel
  obtain ⟨-, later, same⟩ := init_then_check project wellNamed (by decide +kernel)
    (by decide +kernel)
  obtain ⟨still, -, fails⟩ := later false [again]
  obtain ⟨location, before, after, reached, reports, reportsNow, issues, -⟩ :=
    same false { path := "." } rfl (.inl rfl) (by decide +kernel)
  obtain ⟨settings, place, run, analyzes, rfl⟩ := reports.comesTo
  have leads : project.resolve "." = .ok [Text.bytes "p"] := by decide +kernel
  obtain rfl : [Text.bytes "p"] = location := Except.ok.inj (leads.symm.trans reached)
  obtain rfl : [Text.bytes "p"] = place := Except.ok.inj (leads.symm.trans analyzes.reached)
  obtain rfl : settings = {} := analyzes.loads.unique (.builtIn (by decide +kernel))
  have inside : project.view [Text.bytes "p"] = some .directory := rfl
  have has (names : List OsText) (components : ∀ name ∈ names, Path.IsComponent name)
      (listed : Audit.Listed ⟨[]⟩ project "/p" names) (file : String)
      (found : (Audit.fileResult {} project (pathBelow "/p" names)).issues.map Issue.file =
        [file]) :
      ∃ issue ∈ run.result.issues, issue.file = file := by
    obtain ⟨issue, found, isFile⟩ := List.mem_map.mp (found ▸ List.mem_singleton_self file)
    exact ⟨issue, Audit.mem_issues_of_listed wellNamed
      (FileTree.resolve_absolutePath wellNamed inside) inside rfl analyzes.audited components listed
      found, isFile⟩
  refine ⟨still, fails, run.result, after, reports, reportsNow, ?_, ?_, ?_⟩
  · exact has ["vendor", "b.php"] (by decide +kernel) (by decide +kernel) "/p/vendor/b.php"
      (by decide +kernel)
  · intro issue member packaged
    rw [issues, List.mem_filter, packaged] at member
    exact absurd member.2 (by decide +kernel)
  · obtain ⟨issue, found, isFile⟩ :=
      has ["a.php"] (by decide +kernel) (by decide +kernel) "/p/a.php" (by decide +kernel)
    refine ⟨issue, ?_, isFile⟩
    rw [issues, List.mem_filter, isFile]
    exact ⟨found, by decide +kernel⟩

end TimeoutAudit.CommandLine
