import TimeoutAudit.Proofs.Settings.Erased
import TimeoutAudit.Proofs.Settings.Restated

/-!
# Keys that are left out

Without a key the settings are the same but for what the key sets, which has its built-in value
(`Settings.restores_key`).  A section in which nothing is said is like one that is left out: its
fields have the values that they have where they are not written, and one that is left out is built
in as a whole, but these values agree (`Settings.unwritten_eq_builtIn`).

What a text says does not depend on how it is said: a text that holds a document has its settings,
with the keys in any order (`Settings.ofText_of_holds`).
-/

set_option autoImplicit false

namespace TimeoutAudit.Settings

open Yaml (Node Document)

/-! ## Keys -/

/-- The sections of the settings. -/
inductive Part where
  | detectors
  | guzzle
  | symfony
  | curl
deriving DecidableEq, Repr

/-- The keys of the settings on all levels. -/
inductive Key where
  | version
  | excludedPaths
  | part (part : Part)
  | guzzleEnabled
  | clientVariables
  | foreignVariables
  | symfonyEnabled
  | factoryMarker
  | curlEnabled
  | functions
deriving DecidableEq, Repr

/-- Where a section stands. -/
def Part.path : Part → List String
  | detectors => ["detectors"]
  | guzzle => ["detectors", "guzzle"]
  | symfony => ["detectors", "symfony"]
  | curl => ["detectors", "curl"]

/-- Where a key stands. -/
def Key.path : Key → List String
  | version => ["version"]
  | excludedPaths => ["excluded_paths"]
  | part name => name.path
  | guzzleEnabled => ["detectors", "guzzle", "enabled"]
  | clientVariables => ["detectors", "guzzle", "client_variables"]
  | foreignVariables => ["detectors", "guzzle", "foreign_client_variables"]
  | symfonyEnabled => ["detectors", "symfony", "enabled"]
  | factoryMarker => ["detectors", "symfony", "factory_marker"]
  | curlEnabled => ["detectors", "curl", "enabled"]
  | functions => ["detectors", "curl", "functions"]

/-- What says nothing where a key stands: a section without entries, and no value at all. -/
def Key.void : Key → Node → Prop
  | part _ => Node.Void
  | _ => fun _ => False

/-- The built-in settings. -/
def builtIn : Settings := {}

/-- The settings with the built-in value of a section. -/
def restorePart (settings : Settings) : Part → Settings
  | .detectors => { settings with detectors := builtIn.detectors }
  | .guzzle => { settings with detectors.guzzle := builtIn.detectors.guzzle }
  | .symfony => { settings with detectors.symfony := builtIn.detectors.symfony }
  | .curl => { settings with detectors.curl := builtIn.detectors.curl }

/-- The settings with the built-in value of a key. -/
def restore (settings : Settings) : Key → Settings
  | .version => { settings with version := builtIn.version }
  | .excludedPaths => { settings with excludedPaths := builtIn.excludedPaths }
  | .part part => settings.restorePart part
  | .guzzleEnabled =>
    { settings with detectors.guzzle.enabled := builtIn.detectors.guzzle.enabled }
  | .clientVariables =>
    { settings with detectors.guzzle.clientVariables := builtIn.detectors.guzzle.clientVariables }
  | .foreignVariables =>
    { settings with
      detectors.guzzle.foreignVariables := builtIn.detectors.guzzle.foreignVariables }
  | .symfonyEnabled =>
    { settings with detectors.symfony.enabled := builtIn.detectors.symfony.enabled }
  | .factoryMarker =>
    { settings with detectors.symfony.factoryMarker := builtIn.detectors.symfony.factoryMarker }
  | .curlEnabled =>
    { settings with detectors.curl.enabled := builtIn.detectors.curl.enabled }
  | .functions =>
    { settings with detectors.curl.functions := builtIn.detectors.curl.functions }

section

variable {document : Document} {void : Node → Prop} {below : List String}

/-! ## What is not written and what is built in -/

/-- **The two sets of default values agree.**  The values that fields have where they are not
written are those of the built-in records, whatever record one starts from. -/
theorem unwritten_eq_builtIn :
    (∀ start, unwritten guzzleFields start = {}) ∧ (∀ start, unwritten symfonyFields start = {}) ∧
      (∀ start, unwritten curlFields start = {}) ∧ (∀ start, unwritten detectorFields start = {}) ∧
      ∀ start, unwritten fields start = builtIn :=
  ⟨fun _ => rfl, fun _ => rfl, fun _ => rfl, fun _ => rfl, fun _ => rfl⟩

/-! ## The loss of a key -/

/-- What is taken out of the detectors is taken out of the settings. -/
theorem Restores.detectors {inner : DetectorSettings → DetectorSettings}
    (inside : Restores document void below (decodeRecord detectorFields .detectors {}) inner)
    (same : inner {} = {}) :
    Restores document void ("detectors" :: below) (decodeRecord fields .settings {})
      fun settings => { settings with detectors := inner settings.detectors } :=
  inside.record independent_fields (.tail _ (.tail _ (.head _))) (congrArg (Settings.mk "" []) same)

/-- What is taken out of one of the detectors is taken out of the settings. -/
theorem Restores.detector {field : Field DetectorSettings} {inner : field.Value → field.Value}
    (inside : Restores document void below field.decode inner) (member : field ∈ detectorFields)
    (same : field.modify inner {} = {}) :
    Restores document void ("detectors" :: field.name :: below) (decodeRecord fields .settings {})
      fun settings => { settings with detectors := field.modify inner settings.detectors } :=
  (inside.record independent_detectorFields member same).detectors same

/-- **A section that is taken out** leaves its built-in value behind. -/
theorem restores_part (part : Part) :
    Restores document Node.Void part.path (decodeRecord fields .settings {})
      (·.restorePart part) := by
  cases part with
  | detectors => exact (restores_whole detectorFields .detectors {}).detectors rfl
  | guzzle => exact (restores_whole guzzleFields .guzzle {}).detector (.head _) rfl
  | symfony => exact (restores_whole symfonyFields .symfony {}).detector (.tail _ (.head _)) rfl
  | curl => exact (restores_whole curlFields .curl {}).detector (.tail _ (.tail _ (.head _))) rfl

/-- **A key that is taken out** leaves its built-in value behind, and all else as it is. -/
theorem restores_key (key : Key) :
    Restores document key.void key.path (decodeRecord fields .settings {})
      (·.restore key) := by
  cases key with
  | version => exact restores_field independent_fields (.head _)
  | excludedPaths => exact restores_field independent_fields (.tail _ (.head _))
  | part part => exact restores_part part
  | guzzleEnabled =>
      exact (restores_field independent_guzzleFields (.head _)).detector (.head _) rfl
  | clientVariables =>
      exact (restores_field independent_guzzleFields (.tail _ (.head _))).detector (.head _) rfl
  | foreignVariables =>
      exact (restores_field independent_guzzleFields (.tail _ (.tail _ (.head _)))).detector
        (.head _) rfl
  | symfonyEnabled =>
      exact (restores_field independent_symfonyFields (.head _)).detector (.tail _ (.head _)) rfl
  | factoryMarker =>
      exact (restores_field independent_symfonyFields (.tail _ (.head _))).detector
        (.tail _ (.head _)) rfl
  | curlEnabled =>
      exact (restores_field independent_curlFields (.head _)).detector
        (.tail _ (.tail _ (.head _))) rfl
  | functions =>
      exact (restores_field independent_curlFields (.tail _ (.head _))).detector
        (.tail _ (.tail _ (.head _))) rfl

end

/-! ## Documents -/

theorem local_settings : Local (decodeRecord fields .settings {}) := by
  have guzzle : Local (decodeRecord guzzleFields .guzzle {}) := by
    apply local_record
    simp only [guzzleFields, List.forall_mem_cons]
    exact ⟨local_flag, local_list, local_list, List.forall_mem_nil _⟩
  have symfony : Local (decodeRecord symfonyFields .symfony {}) := by
    apply local_record
    simp only [symfonyFields, List.forall_mem_cons]
    exact ⟨local_flag, local_text .text, List.forall_mem_nil _⟩
  have curl : Local (decodeRecord curlFields .curl {}) := by
    apply local_record
    simp only [curlFields, List.forall_mem_cons]
    exact ⟨local_flag, local_list, List.forall_mem_nil _⟩
  have detectors : Local (decodeRecord detectorFields .detectors {}) := by
    apply local_record
    simp only [detectorFields, List.forall_mem_cons]
    exact ⟨guzzle, symfony, curl, List.forall_mem_nil _⟩
  apply local_record
  simp only [fields, List.forall_mem_cons]
  exact ⟨local_text .text, local_list, detectors, List.forall_mem_nil _⟩

/-- **The settings of a document** are those at its top, if it has no problem and stands alone. -/
theorem ofDocument_eq_ok_iff {document : Document} {settings : Settings} :
    ofDocument document = .ok settings ↔
      decodeRecord fields .settings {} document [] document.top = .ok settings ∧
        document.problem = none ∧ document.hasSuccessor = false := by
  have checked (decoded : Except DecodeError Settings) :
      (decoded >>= fun found =>
        if document.problem.isSome then .error (.malformed document.problem)
        else if document.hasSuccessor then .error .severalDocuments
        else pure found) = .ok settings ↔
      decoded = .ok settings ∧ document.problem = none ∧ document.hasSuccessor = false := by
    cases decoded with
    | error error => simp [bind, Except.bind]
    | ok found =>
        cases document.problem <;> cases document.hasSuccessor <;>
          simp [bind, Except.bind, pure, Except.pure]
  unfold ofDocument Document.top
  cases document.root with
  | none =>
      have nothing : decodeRecord fields .settings {} document [] (.nothing .start) =
          .ok (unwritten fields {}) := decodeRecord_of_void (.scalar .start none)
      rw [Option.getD_none, nothing]
      exact checked (.ok (unwritten fields {}))
  | some root => exact checked (decodeRecord fields .settings {} document [] root)

theorem Key.path_ne_nil (key : Key) : key.path ≠ [] := by
  cases key with
  | part name => cases name <;> exact List.cons_ne_nil _ _
  | _ => exact List.cons_ne_nil _ _

/-- A document without a key. -/
def without (document : Document) (key : Key) : Document :=
  { document with root := document.root.bind (erased document key.path) }

theorem erased_top (document : Document) (key : Key) :
    erased document key.path document.top = some (without document key).top := by
  obtain ⟨name, below, path⟩ := List.exists_cons_of_ne_nil key.path_ne_nil
  unfold without Document.top
  rw [path]
  cases document.root with
  | none => rfl
  | some root =>
      rw [Option.getD_some, Option.bind_some, erased]
      split <;> rfl

theorem ofDocument_without {document : Document} {settings : Settings}
    (decoded : ofDocument document = .ok settings) (key : Key) :
    ofDocument (without document key) = .ok (settings.restore key) := by
  obtain ⟨decoded, clear, alone⟩ := ofDocument_eq_ok_iff.mp decoded
  refine ofDocument_eq_ok_iff.mpr ⟨?_, clear, alone⟩
  have left := (restores_key key).kept decoded (erased_top document key)
  rwa [← local_settings document] at left

/-! ## Texts -/

/-- The document of a text; in that of a blank text nothing is written. -/
def documentOf (text : String) : Document :=
  if Text.allBlank text.toList then ⟨none, [], none, false⟩ else .ofText text.toList

theorem ofText_eq (text : String) : ofText text = ofDocument (documentOf text) := by
  unfold ofText documentOf
  split <;> rfl

theorem isWhole_documentOf {text : String} (clear : (documentOf text).problem = none) :
    (documentOf text).IsWhole := by
  unfold documentOf at clear ⊢
  split
  · exact ⟨nofun, nofun⟩
  · rename_i visible
    rw [if_neg visible] at clear
    exact Document.isWhole_ofText clear

/-- Whether a text holds what a document says, in whatever way. -/
structure Holds (text : String) (document : Document) : Prop where
  clear : (documentOf text).problem = none
  alone : (documentOf text).hasSuccessor = false
  same : document.Restates (documentOf text) levels document.top (documentOf text).top

/-- **A text that holds a document** has its settings. -/
theorem ofText_of_holds {text : String} {document : Document} {settings : Settings}
    (decoded : ofDocument document = .ok settings) (holds : Holds text document) :
    ofText text = .ok settings := by
  have whole := isWhole_documentOf holds.clear
  have whole_top : (documentOf text).top.isWhole = true := by
    unfold Document.top
    cases found : (documentOf text).root with
    | none => rfl
    | some root => exact whole.root root found
  obtain ⟨decoded, -, -⟩ := ofDocument_eq_ok_iff.mp decoded
  rw [ofText_eq]
  refine ofDocument_eq_ok_iff.mpr ⟨?_, holds.clear, holds.alone⟩
  exact faithful_settings whole whole_top holds.same decoded

/-- Whether a document has settings, and every text that holds it has them. -/
def Yields (document : Document) (settings : Settings) : Prop :=
  ofDocument document = .ok settings ∧ ∀ text, Holds text document → ofText text = .ok settings

theorem yields_of_ofDocument {document : Document} {settings : Settings}
    (decoded : ofDocument document = .ok settings) : Yields document settings :=
  ⟨decoded, fun _ => ofText_of_holds decoded⟩

/-- **What is left out has its built-in value.**  The settings of a text are those of every text
that says the same, with its keys in any order.  Without a key they are the same but for what the
key sets.  A key that does not stand in the text and a section in which nothing is said have their
built-in values, and a text that says nothing has only such. -/
theorem yields_restored {text : String} {settings : Settings}
    (accepted : ofText text = .ok settings) :
    Yields (documentOf text) settings ∧
      (∀ key, Yields (without (documentOf text) key) (settings.restore key)) ∧
      (∀ key : Key, Silent (documentOf text) key.void key.path (documentOf text).top →
        settings.restore key = settings) ∧
      ∀ empty : String, (documentOf empty).top.Void → (documentOf empty).problem = none →
        (documentOf empty).hasSuccessor = false → ofText empty = .ok builtIn := by
  rw [ofText_eq] at accepted
  refine ⟨yields_of_ofDocument accepted, ?_, ?_, ?_⟩
  · intro key
    exact yields_of_ofDocument (ofDocument_without accepted key)
  · intro key silent
    exact (restores_key key).fixed silent (ofDocument_eq_ok_iff.mp accepted).1
  · intro empty void clear alone
    obtain ⟨-, -, -, -, agree⟩ := unwritten_eq_builtIn
    rw [ofText_eq]
    refine ofDocument_eq_ok_iff.mpr ⟨?_, clear, alone⟩
    rw [decodeRecord_of_void (void.resolve _), agree]

/-- A text with an alias, a key that no setting has and a section in which nothing is said. -/
def sharedText : String :=
  "version: '2'\nextra: [1, \x7ba: b\x7d]\ndetectors:\n  symfony:\n  guzzle: &shared\n" ++
    "    enabled: false\n    client_variables: [api]\n  curl: *shared\n"

/-- The same with the keys in another order, the alias written out, and one key left out. -/
def reorderedText : String :=
  "detectors: \x7bcurl: \x7bclient_variables: [api], enabled: false\x7d, symfony: , " ++
    "guzzle: \x7bclient_variables: [api]\x7d\x7d\nversion: '2'\nextra: [1, \x7ba: b\x7d]\n"

/-- The settings of the text. -/
def sharedSettings : Settings where
  version := "2"
  detectors :=
    { guzzle := { enabled := false, clientVariables := ["api"] }, curl := { enabled := false } }

theorem shared_computed :
    (ofText sharedText).toOption = some sharedSettings ∧
      (documentOf reorderedText).problem = none ∧
      (documentOf reorderedText).hasSuccessor = false ∧
      (without (documentOf sharedText) .guzzleEnabled).testRestates (documentOf reorderedText)
        levels (without (documentOf sharedText) .guzzleEnabled).top
        (documentOf reorderedText).top = true := by
  decide +kernel

theorem yields_restored_shared :
    ofText sharedText = .ok sharedSettings ∧
      ofText reorderedText = .ok (sharedSettings.restore .guzzleEnabled) := by
  obtain ⟨read, clear, alone, same⟩ := shared_computed
  have accepted : ofText sharedText = .ok sharedSettings := by
    cases decoded : ofText sharedText with
    | error error => simp [decoded, Except.toOption] at read
    | ok settings => simpa [decoded, Except.toOption] using read
  have holds : Holds reorderedText (without (documentOf sharedText) .guzzleEnabled) :=
    ⟨clear, alone, Document.restates_of_test same⟩
  exact ⟨accepted, ((yields_restored accepted).2.1 .guzzleEnabled).2 reorderedText holds⟩

end TimeoutAudit.Settings
