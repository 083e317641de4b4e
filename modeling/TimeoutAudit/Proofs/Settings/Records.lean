import Mathlib.Data.List.Nodup
import Mathlib.Data.List.Pairwise
import Mathlib.Data.List.Perm.Basic
import TimeoutAudit.Settings.Decode

/-!
# Records and their entries

A record is decoded entry by entry.  What an entry does can be told apart from when it does it:
an entry with a known key has an update, and one with an unknown key has none
(`Settings.Decoded`).  A record is decoded if no known key comes twice, and its value is that of a
record with no field written, with the updates in turn (`Settings.decodeEntries_eq_ok_iff`).
-/

set_option autoImplicit false

namespace TimeoutAudit.Settings

open Yaml (Node Document)

/-- The text of a scalar, or of the one that an alias stands for. -/
def textOf? (document : Document) (node : Node) : Option String :=
  match document.resolve node with
  | .scalar _ _ _ value => some (String.ofList value)
  | _ => none

theorem decodeText_eq_ok_iff {document : Document} {expected : Expected} {path : List PathPart}
    {node : Node} {text : String} :
    decodeText document expected path node = .ok text ↔ textOf? document node = some text := by
  unfold decodeText textOf?
  cases document.resolve node <;> simp

theorem exists_error_of_textOf? {document : Document} {node : Node}
    (none : textOf? document node = none) (expected : Expected) (path : List PathPart) :
    ∃ error, decodeText document expected path node = .error error := by
  cases decoded : decodeText document expected path node with
  | error error => exact ⟨error, rfl⟩
  | ok text =>
      rw [decodeText_eq_ok_iff.mp decoded] at none
      cases none

section Entries

variable {α : Type} {fields : List (Field α)} {document : Document} {path : List PathPart}

/-- What entries do to a record: the updates of the known keys, in their order. -/
inductive Decoded (fields : List (Field α)) (document : Document) (path : List PathPart) :
    List (Node × Node) → List (String × (α → α)) → Prop where
  | nil : Decoded fields document path [] []
  | known {key value : Node} {rest : List (Node × Node)} {name : String} {field : Field α}
      {said : field.Value} {updates : List (String × (α → α))}
      (named : textOf? document key = some name)
      (found : (fields.find? fun field => field.name == name) = some field)
      (decoded : field.decode document (path ++ [partOf key]) value = .ok said)
      (later : Decoded fields document path rest updates) :
      Decoded fields document path ((key, value) :: rest) ((name, field.part.set said) :: updates)
  | unknown {key value : Node} {rest : List (Node × Node)} {name : String}
      {updates : List (String × (α → α))}
      (named : textOf? document key = some name)
      (found : (fields.find? fun field => field.name == name) = none)
      (whole : value.isWhole = true)
      (later : Decoded fields document path rest updates) :
      Decoded fields document path ((key, value) :: rest) updates

/-- The record after updates. -/
def updated (updates : List (String × (α → α))) (record : α) : α :=
  updates.foldl (fun known update => update.2 known) record

variable {mark : Yaml.Mark} {seen : List String} {key value : Node}
  {rest entries : List (Node × Node)} {record result : α}

/-- The first of the entries that are decoded has a known key that is new, or an unknown key. -/
theorem decodeEntries_cons_eq_ok_iff :
    decodeEntries fields document path mark seen ((key, value) :: rest) record = .ok result ↔
      ∃ name, textOf? document key = some name ∧
        ((∃ field, (fields.find? fun field => field.name == name) = some field ∧ name ∉ seen ∧
            ∃ said, field.decode document (path ++ [partOf key]) value = .ok said ∧
              decodeEntries fields document path mark (name :: seen) rest
                (field.part.set said record) = .ok result) ∨
          ((fields.find? fun field => field.name == name) = none ∧ value.isWhole = true ∧
            decodeEntries fields document path mark seen rest record = .ok result)) := by
  rw [decodeEntries]
  cases named : textOf? document key with
  | none =>
      obtain ⟨error, text⟩ := exists_error_of_textOf? named .fieldName path
      simp [text, bind, Except.bind]
  | some name =>
      have text : decodeText document .fieldName path key = .ok name :=
        decodeText_eq_ok_iff.mpr named
      simp only [text, bind, Except.bind, Option.some.injEq, exists_eq_left']
      cases found : fields.find? fun field => field.name == name with
      | none => by_cases whole : value.isWhole = true <;> simp [whole]
      | some field =>
          by_cases new : name ∈ seen
          · simp [new]
          · cases decoded : field.decode document (path ++ [partOf key]) value <;>
              simp [new, decoded]

/-- **The value of entries**: no known key comes twice, and the updates are made in turn. -/
theorem decodeEntries_eq_ok_iff :
    decodeEntries fields document path mark seen entries record = .ok result ↔
      ∃ updates, Decoded fields document path entries updates ∧
        (updates.map Prod.fst).Nodup ∧ (∀ name ∈ updates.map Prod.fst, name ∉ seen) ∧
        updated updates record = result := by
  induction entries generalizing seen record with
  | nil =>
      rw [decodeEntries]
      constructor
      · rintro same
        exact ⟨[], .nil, List.nodup_nil, by simp, by simpa [updated] using same⟩
      · rintro ⟨updates, decoded, -, -, same⟩
        cases decoded
        rw [← same]
        rfl
  | cons entry rest ih =>
      obtain ⟨key, value⟩ := entry
      rw [decodeEntries_cons_eq_ok_iff]
      constructor
      · rintro ⟨name, named, ⟨field, found, new, said, read, later⟩ | ⟨found, whole, later⟩⟩
        · obtain ⟨updates, decoded, distinct, fresh, same⟩ := ih.mp later
          refine ⟨_, .known named found read decoded, ?_, ?_, same⟩
          · refine List.nodup_cons.mpr ⟨fun again => ?_, distinct⟩
            exact fresh name again List.mem_cons_self
          · rintro other member
            rcases List.mem_cons.mp member with rfl | member
            · exact new
            · exact fun old => fresh other member (List.mem_cons_of_mem _ old)
        · obtain ⟨updates, decoded, distinct, fresh, same⟩ := ih.mp later
          exact ⟨updates, .unknown named found whole decoded, distinct, fresh, same⟩
      · rintro ⟨updates, decoded, distinct, fresh, same⟩
        cases decoded with
        | @known _ _ _ name field said updates named found read later =>
            obtain ⟨unique, distinct⟩ := List.nodup_cons.mp distinct
            have new := fresh name List.mem_cons_self
            refine ⟨name, named, .inl ⟨field, found, new, said, read, ?_⟩⟩
            refine ih.mpr ⟨updates, later, distinct, fun other member old => ?_, same⟩
            rcases List.mem_cons.mp old with rfl | old
            · exact unique member
            · exact fresh other (List.mem_cons_of_mem _ member) old
        | unknown named found whole later =>
            exact ⟨_, named, .inr ⟨found, whole, ih.mpr ⟨updates, later, distinct, fresh, same⟩⟩⟩

/-- The value of a record that is a mapping. -/
theorem decodeRecord_mapping_eq_ok_iff {expected : Expected} {start : α} {node : Node}
    (resolved : document.resolve node = .mapping mark entries) :
    decodeRecord fields expected start document path node = .ok result ↔
      ∃ updates, Decoded fields document path entries updates ∧
        (updates.map Prod.fst).Nodup ∧ updated updates (unwritten fields start) = result := by
  simp only [decodeRecord, resolved]
  simp [decodeEntries_eq_ok_iff]

end Entries

/-! ## Fields that do not meddle with each other -/

section Fields

variable {α : Type} {fields : List (Field α)} {document : Document} {path : List PathPart}

/-- Changes the value of a field in a record. -/
def Field.modify (field : Field α) (change : field.Value → field.Value) (record : α) : α :=
  field.part.set (change (field.part.get record)) record

theorem Field.modify_set (field : Field α) (change : field.Value → field.Value)
    (value : field.Value) (record : α) :
    field.modify change (field.part.set value record) = field.part.set (change value) record := by
  rw [modify, field.part.get_set, field.part.set_set]

theorem Field.set_modify (field : Field α) (change : field.Value → field.Value)
    (value : field.Value) (record : α) :
    field.part.set value (field.modify change record) = field.part.set value record :=
  field.part.set_set value _ record

/-- Whether a value of a field can be set before or after a change of the record. -/
def Field.Commutes (field : Field α) (change : α → α) : Prop :=
  ∀ value record, change (field.part.set value record) = field.part.set value (change record)

/-- Whether two fields have different names and set different parts of the record. -/
structure Field.Apart (first second : Field α) : Prop where
  name_ne : first.name ≠ second.name
  commutes : ∀ value, second.Commutes (first.part.set value)

/-- Whether all fields are apart from each other. -/
def Independent (fields : List (Field α)) : Prop := fields.Pairwise Field.Apart

instance : Std.Symm (Field.Apart : Field α → Field α → Prop) where
  symm _ _ apart := ⟨apart.name_ne.symm, fun value other record =>
    (apart.commutes other value record).symm⟩

/-- What one field changes is not seen by another. -/
theorem Field.Apart.modify {field other : Field α} (apart : field.Apart other)
    (change : field.Value → field.Value) : other.Commutes (field.modify change) := by
  intro value record
  have unseen : field.part.get (other.part.set value record) = field.part.get record := by
    have back := apart.commutes (field.part.get record) value record
    rw [field.part.set_get] at back
    rw [← back, field.part.get_set]
  rw [Field.modify, unseen, apart.commutes, Field.modify]

theorem Independent.apart (independent : Independent fields) {field other : Field α}
    (member : field ∈ fields) (otherMember : other ∈ fields) (different : field ≠ other) :
    field.Apart other :=
  List.Pairwise.forall independent member otherMember different

/-- A field is found by its name. -/
theorem Independent.find? (independent : Independent fields) {field : Field α}
    (member : field ∈ fields) :
    (fields.find? fun other => other.name == field.name) = some field := by
  cases found : fields.find? fun other => other.name == field.name with
  | none => exact absurd (List.find?_eq_none.mp found field member) (by simp)
  | some other =>
      have named : other.name = field.name := by simpa using List.find?_some found
      by_contra different
      have otherMember := List.mem_of_find?_eq_some found
      exact (independent.apart otherMember member fun same => different (same ▸ rfl)).name_ne named

/-- **A field that is not written** has its own value for that. -/
theorem Independent.get_unwritten (independent : Independent fields) {field : Field α}
    (member : field ∈ fields) (start : α) :
    field.part.get (unwritten fields start) = field.unwritten := by
  have later (rest : List (Field α)) (apart : ∀ other ∈ rest, field.Apart other) (record : α) :
      field.part.get (unwritten rest (field.part.set field.unwritten record)) =
        field.unwritten := by
    induction rest generalizing record with
    | nil => exact field.part.get_set _ _
    | cons other rest ih =>
        obtain ⟨first, others⟩ := List.forall_mem_cons.mp apart
        rw [unwritten, List.foldl_cons, ← first.commutes]
        exact ih others _
  induction fields generalizing start with
  | nil => cases member
  | cons first rest ih =>
      obtain ⟨apart, independent⟩ := List.pairwise_cons.mp independent
      rw [unwritten, List.foldl_cons]
      rcases List.mem_cons.mp member with rfl | inside
      · exact later rest apart start
      · exact ih independent inside _

/-- Every update comes from the field with its name. -/
theorem Decoded.exists_field {entries : List (Node × Node)} {updates : List (String × (α → α))}
    (decoded : Decoded fields document path entries updates) :
    ∀ step ∈ updates, ∃ field ∈ fields, field.name = step.1 ∧
      ∃ value, field.part.set value = step.2 := by
  induction decoded with
  | nil => simp
  | @known _ _ _ name field said _ _ found _ _ ih =>
      have named : field.name = name := by simpa using List.find?_some found
      exact List.forall_mem_cons.mpr
        ⟨⟨field, List.mem_of_find?_eq_some found, named, said, rfl⟩, ih⟩
  | unknown _ _ _ _ ih => exact ih

/-! ## The order of entries -/

/-- Entries in another order have the same updates, in another order. -/
theorem Decoded.perm {entries others : List (Node × Node)} (perm : entries.Perm others)
    {updates : List (String × (α → α))} (decoded : Decoded fields document path entries updates) :
    ∃ reordered, Decoded fields document path others reordered ∧ updates.Perm reordered := by
  induction perm generalizing updates with
  | nil => exact ⟨updates, decoded, .refl _⟩
  | cons entry _ ih =>
      cases decoded with
      | known named found read later =>
          obtain ⟨reordered, decoded, perm⟩ := ih later
          exact ⟨_, .known named found read decoded, perm.cons _⟩
      | unknown named found whole later =>
          obtain ⟨reordered, decoded, perm⟩ := ih later
          exact ⟨_, .unknown named found whole decoded, perm⟩
  | swap first second rest =>
      cases decoded with
      | known named found read later =>
          cases later with
          | known named' found' read' later =>
              exact ⟨_, .known named' found' read' (.known named found read later), .swap _ _ _⟩
          | unknown named' found' whole' later =>
              exact ⟨_, .unknown named' found' whole' (.known named found read later), .refl _⟩
      | unknown named found whole later =>
          cases later with
          | known named' found' read' later =>
              exact ⟨_, .known named' found' read' (.unknown named found whole later), .refl _⟩
          | unknown named' found' whole' later =>
              exact ⟨_, .unknown named' found' whole' (.unknown named found whole later), .refl _⟩
  | trans _ _ ih ih' =>
      obtain ⟨between, decoded, perm⟩ := ih decoded
      obtain ⟨reordered, decoded, perm'⟩ := ih' decoded
      exact ⟨reordered, decoded, perm.trans perm'⟩

/-- Updates of independent fields, each made once, can be made in any order. -/
theorem updated_perm (independent : Independent fields) {entries : List (Node × Node)}
    {updates reordered : List (String × (α → α))}
    (decoded : Decoded fields document path entries updates)
    (distinct : (updates.map Prod.fst).Nodup) (perm : updates.Perm reordered) (record : α) :
    updated updates record = updated reordered record := by
  refine perm.foldl_eq' (fun step member step' member' known => ?_) record
  by_cases same : step.1 = step'.1
  · rw [List.inj_on_of_nodup_map distinct member member' same]
  · obtain ⟨field, inside, named, value, sets⟩ := decoded.exists_field step member
    obtain ⟨field', inside', named', value', sets'⟩ := decoded.exists_field step' member'
    have different : field' ≠ field := by
      rintro rfl
      exact same (named.symm.trans named')
    rw [← sets, ← sets']
    exact (independent.apart inside' inside different).commutes value' value known

/-! ## A change of one entry -/

/-- Entries with another value for a name, or with none. -/
def editEntries (document : Document) (name : String) (edit : Node → Option Node)
    (entries : List (Node × Node)) : List (Node × Node) :=
  entries.filterMap fun entry =>
    if textOf? document entry.1 = some name then (edit entry.2).map (entry.1, ·) else some entry

theorem editEntries_cons_own {name : String} {edit : Node → Option Node} {key value : Node}
    {rest : List (Node × Node)} (named : textOf? document key = some name) :
    editEntries document name edit ((key, value) :: rest) =
      ((edit value).map (key, ·)).toList ++ editEntries document name edit rest := by
  cases written : edit value <;> simp [editEntries, named, written]

theorem editEntries_cons_other {name : String} {edit : Node → Option Node} {key value : Node}
    {rest : List (Node × Node)} (named : textOf? document key ≠ some name) :
    editEntries document name edit ((key, value) :: rest) =
      (key, value) :: editEntries document name edit rest := by
  simp [editEntries, named]

@[simp]
theorem editEntries_some (document : Document) (name : String) (entries : List (Node × Node)) :
    editEntries document name some entries = entries := by
  simp [editEntries]

/-- What a change of the node of a field has to do with a change of its value: without the node
the change does not depend on what was there, and another node has the changed value. -/
def Field.Follows (field : Field α) (document : Document) (edit : Node → Option Node)
    (change : field.Value → field.Value) (node : Node) : Prop :=
  ∀ path value, field.decode document path node = .ok value →
    match edit node with
    | none => ∀ other, change value = change other
    | some other => field.decode document path other = .ok (change value)

/-- **A change of one entry** makes one change of the record, whatever entries stand around it. -/
theorem Decoded.edit (independent : Independent fields) {field : Field α} (member : field ∈ fields)
    {edit : Node → Option Node} {change : field.Value → field.Value}
    {entries : List (Node × Node)} {updates : List (String × (α → α))}
    (decoded : Decoded fields document path entries updates)
    (follows : ∀ entry ∈ entries, textOf? document entry.1 = some field.name →
      field.Follows document edit change entry.2) :
    ∃ edited, Decoded fields document path (editEntries document field.name edit entries) edited ∧
      (edited.map Prod.fst).Sublist (updates.map Prod.fst) ∧
      ∀ record, updated edited (field.modify change record) =
        field.modify change (updated updates record) := by
  induction decoded with
  | nil => exact ⟨[], .nil, .refl _, fun _ => rfl⟩
  | @known key node rest word other said updates named found read later ih =>
      obtain ⟨follow, follows⟩ := List.forall_mem_cons.mp follows
      obtain ⟨edited, decoded, sub, same⟩ := ih follows
      by_cases own : word = field.name
      · subst own
        obtain rfl : field = other := Option.some.inj ((independent.find? member).symm.trans found)
        have follow := follow named _ _ read
        rw [editEntries_cons_own named]
        cases written : edit node with
        | none =>
            simp only [written] at follow
            refine ⟨edited, decoded, sub.cons _, fun record => ?_⟩
            calc updated edited (field.modify change record)
                = updated edited (field.modify change (field.part.set said record)) := by
                  rw [field.modify_set, follow (field.part.get record), Field.modify]
              _ = field.modify change (updated updates (field.part.set said record)) := same _
        | some replaced =>
            simp only [written] at follow
            refine ⟨_, .known named found follow decoded, sub.cons_cons _, fun record => ?_⟩
            calc updated edited (field.part.set (change said) (field.modify change record))
                = updated edited (field.modify change (field.part.set said record)) := by
                  rw [field.set_modify, field.modify_set]
              _ = field.modify change (updated updates (field.part.set said record)) := same _
      · rw [editEntries_cons_other (by simpa [named] using own)]
        have inside : other ∈ fields := List.mem_of_find?_eq_some found
        have known : other.name = word := by simpa using List.find?_some found
        have apart : field.Apart other :=
          independent.apart member inside fun same => own (known ▸ same ▸ rfl)
        refine ⟨_, .known named found read decoded, sub.cons_cons _, fun record => ?_⟩
        calc updated edited (other.part.set said (field.modify change record))
            = updated edited (field.modify change (other.part.set said record)) := by
              rw [← apart.modify]
          _ = field.modify change (updated updates (other.part.set said record)) := same _
  | @unknown key node rest word updates named found whole later ih =>
      obtain ⟨edited, decoded, sub, same⟩ := ih (List.forall_mem_cons.mp follows).2
      have own : word ≠ field.name := by
        rintro rfl
        rw [independent.find? member] at found
        cases found
      rw [editEntries_cons_other (by simpa [named] using own)]
      exact ⟨edited, .unknown named found whole decoded, sub, same⟩

end Fields

end TimeoutAudit.Settings
