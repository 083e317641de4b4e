import TimeoutAudit.Proofs.Settings.Records
import TimeoutAudit.Yaml.Document

/-!
# Values that are taken out

A path of keys leads through mappings to a value, which can be taken out (`Settings.erased`).  If a
decoder answers that by a change of what it finds, so does the decoder of every record around it
(`Settings.Restores.record`); and where the path leads nowhere, there is nothing to change.

No decoder looks at the root of a document (`Settings.Local`), so it does not matter that the
root is what the value is taken out of.
-/

set_option autoImplicit false

namespace TimeoutAudit

namespace Yaml

/-- Nodes in which nothing is said. -/
inductive Node.Void : Node → Prop where
  | mapping (mark : Mark) : Void (.mapping mark [])
  | scalar (mark : Mark) (tag : Option (List Char)) : Void (.scalar mark .plain tag [])

theorem Node.Void.resolve {node : Node} (void : node.Void) (document : Document) :
    (document.resolve node).Void := by
  cases void with
  | mapping mark => exact .mapping mark
  | scalar mark tag => exact .scalar mark tag

/-- What stands at the top of a document, where nothing may be written. -/
def Document.top (document : Document) : Node := document.root.getD (.nothing .start)

end Yaml

namespace Settings

open Yaml (Node Document)

/-! ## The root of a document -/

/-- Whether a decoder does without the root of the document. -/
def Local {β : Type} (decode : Document → List PathPart → Node → Except DecodeError β) : Prop :=
  ∀ (document : Document) (root : Option Node), decode { document with root } = decode document

theorem local_text (expected : Expected) : Local (decodeText · expected) := fun _ _ => rfl

theorem local_flag : Local decodeFlag := fun _ _ => rfl

theorem local_list : Local decodeList := by
  intro document root
  have items (path : List PathPart) (index : Nat) (nodes : List Node) :
      decodeItems { document with root } path index nodes =
        decodeItems document path index nodes := by
    induction nodes generalizing index with
    | nil => rfl
    | cons node rest ih =>
        rw [decodeItems, decodeItems, ih]
        rfl
  funext path node
  simp only [decodeList, items]
  rfl

theorem local_record {α : Type} {fields : List (Field α)}
    (local_fields : ∀ field ∈ fields, Local field.decode) (expected : Expected) (start : α) :
    Local (decodeRecord fields expected start) := by
  intro document root
  have entries (path : List PathPart) (mark : Yaml.Mark) (seen : List String)
      (nodes : List (Node × Node)) (record : α) :
      decodeEntries fields { document with root } path mark seen nodes record =
        decodeEntries fields document path mark seen nodes record := by
    induction nodes generalizing seen record with
    | nil => rfl
    | cons entry rest ih =>
        obtain ⟨key, value⟩ := entry
        have text : decodeText { document with root } .fieldName path key =
          decodeText document .fieldName path key := rfl
        simp only [decodeEntries, text, ih]
        cases decodeText document .fieldName path key with
        | error error => rfl
        | ok name =>
            simp only [bind, Except.bind]
            cases found : fields.find? fun field => field.name == name with
            | none => rfl
            | some field =>
                have inside := List.mem_of_find?_eq_some found
                simp only [local_fields field inside document root]
  funext path node
  simp only [decodeRecord, entries]
  rfl

/-! ## What stands at the end of a path -/

/-- A node without the value that a path of keys leads to. -/
def erased (document : Document) : List String → Node → Option Node
  | [], _ => none
  | name :: below, node =>
    match document.resolve node with
    | .mapping mark entries =>
      some (.mapping mark (editEntries document name (erased document below) entries))
    | _ => some node

/-- Whether a path of keys leads nowhere, or only to nodes that say nothing. -/
def Silent (document : Document) (void : Node → Prop) : List String → Node → Prop
  | [], node => void (document.resolve node)
  | name :: below, node =>
    ∀ mark entries, document.resolve node = .mapping mark entries → ∀ entry ∈ entries,
      textOf? document entry.1 = some name → Silent document void below entry.2

/-- Whether a decoder answers the loss of the value at the end of a path by a change of what it
finds.  If nothing is left to decode, what was there does not matter; if nothing was there, the
change changes nothing. -/
structure Restores {β : Type} (document : Document) (void : Node → Prop) (path : List String)
    (decode : Document → List PathPart → Node → Except DecodeError β) (change : β → β) :
    Prop where
  kept : ∀ {place node other value}, decode document place node = .ok value →
    erased document path node = some other → decode document place other = .ok (change value)
  lost : ∀ {node}, erased document path node = none →
    ∀ value value', change value = change value'
  fixed : ∀ {place node value}, Silent document void path node →
    decode document place node = .ok value → change value = value

section

variable {document : Document} {void : Node → Prop}

theorem restores_value {β : Type}
    (decode : Document → List PathPart → Node → Except DecodeError β) (builtIn : β) :
    Restores document (fun _ => False) [] decode (fun _ => builtIn) where
  kept _ := nofun
  lost _ _ _ := rfl
  fixed := nofun

/-- A record in which nothing is said has no field written. -/
theorem decodeRecord_of_void {α : Type} {fields : List (Field α)} {expected : Expected}
    {start : α} {path : List PathPart} {node : Node} (silent : (document.resolve node).Void) :
    decodeRecord fields expected start document path node = .ok (unwritten fields start) := by
  rw [decodeRecord]
  generalize document.resolve node = found at silent
  cases silent with
  | mapping => rfl
  | scalar => rfl

theorem restores_whole {α : Type} (fields : List (Field α)) (expected : Expected) (start : α) :
    Restores document Node.Void [] (decodeRecord fields expected start)
      (fun _ => unwritten fields start) where
  kept _ := nofun
  lost _ _ _ := rfl
  fixed silent decoded := Except.ok.inj ((decodeRecord_of_void silent).symm.trans decoded)

/-- A record that is no mapping has no field written. -/
theorem eq_unwritten_of_not_mapping {α : Type} {fields : List (Field α)} {expected : Expected}
    {start record : α} {path : List PathPart} {node : Node}
    (resolved : ∀ mark entries, document.resolve node ≠ .mapping mark entries)
    (decoded : decodeRecord fields expected start document path node = .ok record) :
    record = unwritten fields start := by
  rw [decodeRecord] at decoded
  split at decoded
  case h_1 mark entries found => exact absurd found (resolved mark entries)
  case h_2 =>
    split at decoded
    · exact (Except.ok.inj decoded).symm
    · cases decoded

variable {α : Type} {fields : List (Field α)} {field : Field α} {expected : Expected} {start : α}
  {below : List String} {inner : field.Value → field.Value}

/-- A field of a record follows the loss of its value. -/
theorem Restores.follows (inside : Restores document void below field.decode inner)
    (node : Node) : field.Follows document (erased document below) inner node := by
  intro path value decoded
  cases left : erased document below node with
  | none => exact inside.lost left value
  | some other => exact inside.kept decoded left

/-- A field of a record stays as it is where nothing is said. -/
theorem Restores.follows_silent (inside : Restores document void below field.decode inner)
    {node : Node} (silent : Silent document void below node) :
    field.Follows document some inner node := by
  intro path value decoded
  show field.decode document path node = .ok (inner value)
  rw [inside.fixed silent decoded, decoded]

/-- **What is taken out of a record** is taken out of one of its fields. -/
theorem Restores.record (inside : Restores document void below field.decode inner)
    (independent : Independent fields) (member : field ∈ fields)
    (same : field.modify inner (unwritten fields start) = unwritten fields start) :
    Restores document void (field.name :: below) (decodeRecord fields expected start)
      (field.modify inner) where
  kept {place node other value} decoded left := by
    rw [erased] at left
    split at left
    case h_1 mark entries resolved =>
      cases left
      obtain ⟨updates, decoded, distinct, result⟩ :=
        (decodeRecord_mapping_eq_ok_iff resolved).mp decoded
      obtain ⟨changed, decoded, sub, changes⟩ :=
        decoded.edit independent member fun entry _ _ => inside.follows entry.2
      refine (decodeRecord_mapping_eq_ok_iff rfl).mpr ⟨changed, decoded, distinct.sublist sub, ?_⟩
      rw [← result, ← changes, same]
    case h_2 resolved =>
      cases left
      obtain rfl : value = unwritten fields start := eq_unwritten_of_not_mapping resolved decoded
      rw [same]
      exact decoded
  lost {node} left := by
    rw [erased] at left
    split at left <;> cases left
  fixed {place node value} silent decoded := by
    by_cases resolved : ∃ mark entries, document.resolve node = .mapping mark entries
    · obtain ⟨mark, entries, resolved⟩ := resolved
      obtain ⟨updates, steps, distinct, result⟩ :=
        (decodeRecord_mapping_eq_ok_iff resolved).mp decoded
      -- The entries stay as they are, and so the change of the record is none.
      obtain ⟨changed, steps, sub, changes⟩ :=
        steps.edit independent member fun entry entryMember named =>
          inside.follows_silent (silent mark entries resolved entry entryMember named)
      rw [editEntries_some] at steps
      have again : decodeRecord fields expected start document place node =
          .ok (field.modify inner value) := by
        refine (decodeRecord_mapping_eq_ok_iff resolved).mpr
          ⟨changed, steps, distinct.sublist sub, ?_⟩
        rw [← result, ← changes, same]
      exact Except.ok.inj (again.symm.trans decoded)
    · simp only [not_exists] at resolved
      rw [eq_unwritten_of_not_mapping resolved decoded, same]

/-- **A field that is taken out** has the value that it has where it is not written. -/
theorem restores_field (independent : Independent fields) (member : field ∈ fields) :
    Restores document (fun _ => False) [field.name] (decodeRecord fields expected start)
      (field.modify fun _ => field.unwritten) := by
  refine (restores_value field.decode field.unwritten).record independent member ?_
  have stays := field.part.set_get (unwritten fields start)
  rwa [independent.get_unwritten member] at stays

end

end Settings

end TimeoutAudit
