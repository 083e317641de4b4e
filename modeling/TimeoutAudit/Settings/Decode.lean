import TimeoutAudit.Settings
import TimeoutAudit.Text.Blank
import TimeoutAudit.Yaml.Document
import TimeoutAudit.Yaml.Meaning

/-!
# Settings from a YAML text

Every record of settings is a mapping whose keys are its fields.  A field that is
not written has a value of its own for that, an unknown key is passed over, and a
known key may stand only once.  A place where nothing is written counts as an empty
mapping or list.

Entries are decoded in the order of the text, so the first error is reported, be
it an error of the settings or a problem of the text.
-/

set_option autoImplicit false

namespace TimeoutAudit.Settings

/-! ## Errors -/

/-- A step from a node to one below it. -/
inductive PathPart where
  | field (name : List Char)
  /-- A field whose name is an alias. -/
  | unnamed
  | item (index : Nat)
deriving DecidableEq, Repr

/-- A path as text, given what stands in front of it. -/
def pathText : String → List PathPart → String
  | before, [] => before
  | before, part :: rest =>
    let joint := if before.isEmpty then "" else before ++ "."
    match part with
    | .field name => pathText (joint ++ String.ofList name) rest
    | .unnamed => pathText (joint ++ "?") rest
    | .item index =>
      pathText ((if before.isEmpty then "." else before) ++ "[" ++ toString index ++ "]") rest

/-- What a place of the settings has to hold. -/
inductive Expected where
  | settings
  | detectors
  | guzzle
  | symfony
  | curl
  | list
  | text
  | flag
  | fieldName
deriving DecidableEq, Repr

/-- What is expected, in words. -/
def Expected.message : Expected → String
  | settings => "struct Config"
  | detectors => "struct DetectorsConfig"
  | guzzle => "struct GuzzleConfig"
  | symfony => "struct SymfonyConfig"
  | curl => "struct CurlConfig"
  | list => "a sequence"
  | text => "a string"
  | flag => "a boolean"
  | fieldName => "field identifier"

/-- Why a text holds no settings. -/
inductive DecodeError where
  /-- A node is not what the settings have in its place. -/
  | mismatch (path : List PathPart) (mark : Yaml.Mark) (found : Yaml.Meaning)
      (expected : Expected)
  /-- A field stands twice in the mapping at a place. -/
  | repeated (path : List PathPart) (mark : Yaml.Mark) (name : String)
  /-- The text is no YAML. -/
  | malformed (problem : Option Yaml.Problem)
  /-- A second document follows. -/
  | severalDocuments
deriving Repr

namespace DecodeError

/-- A message with the path and the place it is about. -/
def located (path : List PathPart) (mark : Yaml.Mark) (message : String) : String :=
  (if path.isEmpty then "" else pathText "" path ++ ": ") ++ message ++ mark.suffix

/-- The wording of an error. -/
def message : DecodeError → String
  | mismatch path mark (.mistagged value wanted) _ =>
    located path mark
      ("invalid value: " ++ (Yaml.Meaning.mistagged value wanted).message ++ ", expected " ++ wanted)
  | mismatch path mark found expected =>
    located path mark ("invalid type: " ++ found.message ++ ", expected " ++ expected.message)
  | repeated path mark name => located path mark ("duplicate field \x60" ++ name ++ "\x60")
  | malformed (some problem) => problem.message
  | malformed none => "EOF while parsing a value"
  | severalDocuments => "deserializing from YAML containing more than one document is not supported"

end DecodeError

/-! ## Simple values -/

open Yaml (Node Document)

/-- The error of a node that is not what is expected. -/
def mismatch (document : Document) (path : List PathPart) (expected : Expected) :
    Node → DecodeError
  | .scalar mark style tag value => .mismatch path mark (.ofScalar style tag value) expected
  | .sequence mark _ => .mismatch path mark .sequence expected
  | .mapping mark _ => .mismatch path mark .mapping expected
  | .alias _ _ => .malformed document.problem
  | .broken => .malformed document.problem

/-- A text: any scalar, as it is written. -/
def decodeText (document : Document) (expected : Expected) (path : List PathPart) (node : Node) :
    Except DecodeError String :=
  match document.resolve node with
  | .scalar _ _ _ value => .ok (String.ofList value)
  | other => .error (mismatch document path expected other)

/-- A truth value. -/
def decodeFlag (document : Document) (path : List PathPart) (node : Node) :
    Except DecodeError Bool :=
  match document.resolve node with
  | .scalar mark style tag value =>
    match Yaml.Meaning.flag? style tag value with
    | some found => .ok found
    | none => .error (mismatch document path .flag (.scalar mark style tag value))
  | other => .error (mismatch document path .flag other)

/-- The texts of a sequence, from the given index on. -/
def decodeItems (document : Document) (path : List PathPart) :
    Nat → List Node → Except DecodeError (List String)
  | _, [] => .ok []
  | index, item :: rest => do
    let first ← decodeText document .text (path ++ [.item index]) item
    let others ← decodeItems document path (index + 1) rest
    return first :: others

/-- Whether a node is a place where nothing is written. -/
def isUnwritten : Node → Bool
  | .scalar _ style _ value => style == .plain && value.isEmpty
  | _ => false

/-- A list of texts. -/
def decodeList (document : Document) (path : List PathPart) (node : Node) :
    Except DecodeError (List String) :=
  match document.resolve node with
  | .sequence _ items => decodeItems document path 0 items
  | other => if isUnwritten other then .ok [] else .error (mismatch document path .list other)

/-! ## Records -/

/-- A part of a record, which can be read and set. -/
structure Lens (α β : Type) where
  get : α → β
  set : β → α → α
  get_set : ∀ value record, get (set value record) = value := by intros; rfl
  set_get : ∀ record, set (get record) record = record := by intros; rfl
  set_set : ∀ value other record, set value (set other record) = set value record := by
    intros; rfl

/-- A field of a record: the part that it sets, and the value that it has where it is
not written. -/
structure Field (α : Type) where
  {Value : Type}
  name : String
  unwritten : Value
  part : Lens α Value
  decode : Document → List PathPart → Node → Except DecodeError Value

/-- A record with none of its fields written. -/
def unwritten {α : Type} (fields : List (Field α)) (start : α) : α :=
  fields.foldl (fun record field => field.part.set field.unwritten record) start

/-- The step from a mapping to the value of a key. -/
def partOf : Node → PathPart
  | .scalar _ _ _ value => .field value
  | _ => .unnamed

/-- Decodes the entries of a mapping one after another.  `seen` are the fields that
have been decoded. -/
def decodeEntries {α : Type} (fields : List (Field α)) (document : Document)
    (path : List PathPart) (mark : Yaml.Mark) :
    List String → List (Node × Node) → α → Except DecodeError α
  | _, [], record => .ok record
  | seen, (key, node) :: rest, record => do
    let name ← decodeText document .fieldName path key
    match fields.find? fun field => field.name == name with
    | some field =>
      if seen.contains name then .error (.repeated path mark name)
      else
        let value ← field.decode document (path ++ [partOf key]) node
        decodeEntries fields document path mark (name :: seen) rest (field.part.set value record)
    | none =>
      if node.isWhole then decodeEntries fields document path mark seen rest record
      else .error (.malformed document.problem)

/-- A record, starting from one of which nothing is left. -/
def decodeRecord {α : Type} (fields : List (Field α)) (expected : Expected) (start : α)
    (document : Document) (path : List PathPart) (node : Node) : Except DecodeError α :=
  match document.resolve node with
  | .mapping mark entries =>
    decodeEntries fields document path mark [] entries (unwritten fields start)
  | other =>
    if isUnwritten other then .ok (unwritten fields start)
    else .error (mismatch document path expected other)

/-! ## The records of the settings -/

/-- Whether a detector is used. -/
def enabledField {α : Type} (part : Lens α Bool) : Field α := ⟨"enabled", true, part, decodeFlag⟩

/-- A list of texts. -/
def listField {α : Type} (name : String) (unwritten : List String) (part : Lens α (List String)) :
    Field α :=
  ⟨name, unwritten, part, decodeList⟩

/-- A text. -/
def textField {α : Type} (name : String) (unwritten : String) (part : Lens α String) : Field α :=
  ⟨name, unwritten, part, (decodeText · .text)⟩

/-- A record within a record.  Where it is not written, it is built in as a whole. -/
def recordField {α β : Type} (name : String) (fields : List (Field β)) (expected : Expected)
    (builtIn : β) (part : Lens α β) : Field α :=
  ⟨name, builtIn, part, decodeRecord fields expected builtIn⟩

def guzzleFields : List (Field GuzzleSettings) :=
  [enabledField
      { get := (·.enabled), set := fun value settings => { settings with enabled := value } },
    listField "client_variables" usualClientVariables
      { get := (·.clientVariables)
        set := fun value settings => { settings with clientVariables := value } },
    listField "foreign_client_variables" usualForeignVariables
      { get := (·.foreignVariables)
        set := fun value settings => { settings with foreignVariables := value } }]

def symfonyFields : List (Field SymfonySettings) :=
  [enabledField
      { get := (·.enabled), set := fun value settings => { settings with enabled := value } },
    textField "factory_marker" usualFactoryMarker
      { get := (·.factoryMarker)
        set := fun value settings => { settings with factoryMarker := value } }]

def curlFields : List (Field CurlSettings) :=
  [enabledField
      { get := (·.enabled), set := fun value settings => { settings with enabled := value } },
    listField "functions" usualFunctions
      { get := (·.functions), set := fun value settings => { settings with functions := value } }]

def detectorFields : List (Field DetectorSettings) :=
  [recordField "guzzle" guzzleFields .guzzle {}
      { get := (·.guzzle), set := fun value settings => { settings with guzzle := value } },
    recordField "symfony" symfonyFields .symfony {}
      { get := (·.symfony), set := fun value settings => { settings with symfony := value } },
    recordField "curl" curlFields .curl {}
      { get := (·.curl), set := fun value settings => { settings with curl := value } }]

def fields : List (Field Settings) :=
  [textField "version" ""
      { get := (·.version), set := fun value settings => { settings with version := value } },
    listField "excluded_paths" []
      { get := (·.excludedPaths)
        set := fun value settings => { settings with excludedPaths := value } },
    recordField "detectors" detectorFields .detectors {}
      { get := (·.detectors), set := fun value settings => { settings with detectors := value } }]

/-! ## Texts -/

/-- The settings of a document, which has to be the only one. -/
def ofDocument (document : Document) : Except DecodeError Settings := do
  let settings ← match document.root with
    | none => .ok (unwritten fields {})
    | some root => decodeRecord fields .settings {} document [] root
  if document.problem.isSome then .error (.malformed document.problem)
  else if document.hasSuccessor then .error .severalDocuments
  else return settings

/-- The settings of a text; a blank text leaves all of them built in. -/
def ofText (text : String) : Except DecodeError Settings :=
  if Text.allBlank text.toList then .ok {} else ofDocument (.ofText text.toList)

end TimeoutAudit.Settings
