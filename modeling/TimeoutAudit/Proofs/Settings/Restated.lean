import TimeoutAudit.Proofs.Settings.Records
import TimeoutAudit.Proofs.Yaml.Restated
import TimeoutAudit.Proofs.Yaml.Whole

/-!
# Settings that are said in another way

A decoder looks a few levels down from a node.  Where another document restates what it sees, it
finds the same value (`Settings.Faithful`): texts and truth values, lists of texts, and records of
independent fields, which may stand in any order (`Settings.faithful_record`).
-/

set_option autoImplicit false

namespace TimeoutAudit

namespace Yaml

/-- What a node stands for is whole, if there is anything. -/
theorem Document.IsWhole.resolve {document : Document} (whole : document.IsWhole) {node : Node}
    (whole_node : node.isWhole = true) :
    document.resolve node = .broken ∨ (document.resolve node).isWhole = true := by
  unfold Document.resolve
  split
  · rename_i anchor
    cases found : document.anchored.lookup anchor with
    | none => exact .inl rfl
    | some target =>
        obtain ⟨before, after, same, -⟩ := List.lookup_eq_some_iff.mp found
        exact .inr (whole.anchored (anchor, target) (by simp [same]))
  · exact .inr whole_node

end Yaml

namespace Settings

open Yaml (Node Document)

/-- Whether a decoder, which looks down to a depth, finds the same value in every node that
restates another one. -/
def Faithful {β : Type} (depth : Nat)
    (decode : Document → List PathPart → Node → Except DecodeError β) : Prop :=
  ∀ ⦃document other : Document⦄ ⦃path path' : List PathPart⦄ ⦃node node' : Node⦄ ⦃value : β⦄,
    other.IsWhole → node'.isWhole = true → document.Restates other depth node node' →
    decode document path node = .ok value → decode other path' node' = .ok value

section

variable {β : Type} {depth : Nat}
  {decode : Document → List PathPart → Node → Except DecodeError β}

/-- A decoder may look less far down than it could. -/
theorem Faithful.deeper (faithful : Faithful depth decode) : Faithful (depth + 1) decode := by
  intro document other path path' node node' value whole whole' same decoded
  exact faithful whole whole' same.less decoded

end

/-! ## Simple values -/

section

variable {document other : Document} {depth : Nat}

theorem textOf?_of_restates {node node' : Node} {text : String}
    (same : document.Restates other (depth + 1) node node')
    (named : textOf? document node = some text) : textOf? other node' = some text := by
  unfold textOf? at named ⊢
  rw [Document.Restates] at same
  generalize document.resolve node = found at same named
  generalize other.resolve node' = found' at same ⊢
  cases same with
  | scalar => exact named
  | sequence => cases named
  | mapping => cases named
  | unwritten => cases named

theorem faithful_text (expected : Expected) : Faithful 1 (decodeText · expected) := by
  intro document other path path' node node' text _ _ same decoded
  exact decodeText_eq_ok_iff.mpr (textOf?_of_restates same (decodeText_eq_ok_iff.mp decoded))

theorem faithful_flag : Faithful 1 decodeFlag := by
  intro document other path path' node node' flag _ _ same decoded
  unfold decodeFlag at decoded ⊢
  rw [Document.Restates] at same
  generalize document.resolve node = found at same decoded
  generalize other.resolve node' = found' at same ⊢
  cases same with
  | scalar mark mark' style tag value =>
      cases flagged : Yaml.Meaning.flag? style tag value with
      | none => simp [flagged] at decoded
      | some found => simpa [flagged] using decoded
  | sequence => cases decoded
  | mapping => cases decoded
  | unwritten => cases decoded

theorem decodeItems_of_restates {path path' : List PathPart} {index index' : Nat}
    {items items' : List Node} {texts : List String}
    (same : List.Forall₂ (document.Restates other (depth + 1)) items items')
    (decoded : decodeItems document path index items = .ok texts) :
    decodeItems other path' index' items' = .ok texts := by
  induction same generalizing index index' texts with
  | nil => exact decoded
  | @cons item item' rest rest' same _ ih =>
      rw [decodeItems] at decoded ⊢
      cases first : decodeText document .text (path ++ [.item index]) item with
      | error error => simp [first, bind, Except.bind] at decoded
      | ok text =>
          have named := textOf?_of_restates same (decodeText_eq_ok_iff.mp first)
          have first' : decodeText other .text (path' ++ [.item index']) item' = .ok text :=
            decodeText_eq_ok_iff.mpr named
          cases later : decodeItems document path (index + 1) rest with
          | error error => simp [first, later, bind, Except.bind] at decoded
          | ok others =>
              have later' : decodeItems other path' (index' + 1) rest' = .ok others := ih later
              simpa [first, first', later, later', bind, Except.bind] using decoded

theorem faithful_list : Faithful 2 decodeList := by
  intro document other path path' node node' texts _ _ same decoded
  unfold decodeList at decoded ⊢
  rw [Document.Restates] at same
  generalize document.resolve node = found at same decoded
  generalize other.resolve node' = found' at same ⊢
  cases same with
  | scalar mark mark' style tag value =>
      by_cases unwritten : style = .plain ∧ value = []
      · simpa [isUnwritten, unwritten] using decoded
      · simp [isUnwritten, unwritten] at decoded
  | sequence same => exact decodeItems_of_restates same decoded
  | mapping => cases decoded
  | unwritten => cases decoded

end

/-! ## Records -/

section

variable {α : Type} {fields : List (Field α)} {depth : Nat}

/-- Entries that restate others one by one have the same updates. -/
theorem Decoded.restated (faithful : ∀ field ∈ fields, Faithful (depth + 1) field.decode)
    {document other : Document} {path : List PathPart} (path' : List PathPart)
    (whole : other.IsWhole) {entries entries' : List (Node × Node)}
    (whole_entries : ∀ entry ∈ entries', entry.1.isWhole = true ∧ entry.2.isWhole = true)
    (same : List.Forall₂ (fun entry entry' =>
      document.Restates other (depth + 1) entry.1 entry'.1 ∧
        document.Restates other (depth + 1) entry.2 entry'.2) entries entries')
    {updates : List (String × (α → α))} (decoded : Decoded fields document path entries updates) :
    Decoded fields other path' entries' updates := by
  induction same generalizing updates with
  | nil =>
      cases decoded
      exact .nil
  | @cons entry entry' _ _ both _ ih =>
      obtain ⟨key', value'⟩ := entry'
      obtain ⟨⟨-, whole_value⟩, whole_rest⟩ := List.forall_mem_cons.mp whole_entries
      cases decoded with
      | known named found read later =>
          refine .known (textOf?_of_restates both.1 named) found ?_ (ih whole_rest later)
          exact faithful _ (List.mem_of_find?_eq_some found) whole whole_value both.2 read
      | unknown named found _ later =>
          exact .unknown (textOf?_of_restates both.1 named) found whole_value (ih whole_rest later)

/-- **A record of independent fields** has the same value in every order of its entries, and
wherever nothing is written for no entries. -/
theorem faithful_record (independent : Independent fields)
    (faithful : ∀ field ∈ fields, Faithful (depth + 1) field.decode) (expected : Expected)
    (start : α) : Faithful (depth + 2) (decodeRecord fields expected start) := by
  intro document other path path' node node' record whole whole' same decoded
  rw [Document.Restates] at same
  have readable := whole.resolve whole'
  generalize found : document.resolve node = target at same
  generalize found' : other.resolve node' = target' at same readable
  cases same with
  | scalar mark mark' style tag value =>
      simp only [decodeRecord, found, found', isUnwritten] at decoded ⊢
      by_cases unwritten : (style == .plain && value.isEmpty) = true
      · simpa [unwritten] using decoded
      · simp [unwritten] at decoded
  | sequence => simp [decodeRecord, found, isUnwritten] at decoded
  | unwritten =>
      simp only [decodeRecord, found, decodeEntries] at decoded
      simpa [decodeRecord, found', isUnwritten] using decoded
  | @mapping mark mark' entries reordered entries' perm same =>
      have whole_entries : ∀ entry ∈ entries', entry.1.isWhole = true ∧ entry.2.isWhole = true := by
        apply Node.areWholeEntries_iff.mp
        simpa [Node.isWhole] using readable
      obtain ⟨updates, decoded, distinct, result⟩ :=
        (decodeRecord_mapping_eq_ok_iff found).mp decoded
      obtain ⟨moved, decoded_moved, moves⟩ := decoded.perm perm
      refine (decodeRecord_mapping_eq_ok_iff found').mpr ⟨moved, ?_, ?_, ?_⟩
      · exact decoded_moved.restated faithful path' whole whole_entries same
      · exact (moves.map Prod.fst).nodup_iff.mp distinct
      · rw [← updated_perm independent decoded distinct moves, result]

end

/-! ## All settings -/

theorem independent_guzzleFields : Independent guzzleFields := by
  simp only [Independent, guzzleFields, List.pairwise_cons, List.forall_mem_cons, List.not_mem_nil,
    false_imp_iff, implies_true, List.Pairwise.nil, and_true]
  refine ⟨⟨?_, ?_⟩, ?_⟩ <;> exact ⟨by decide, fun _ _ _ => rfl⟩

theorem independent_symfonyFields : Independent symfonyFields := by
  simp only [Independent, symfonyFields, List.pairwise_cons, List.forall_mem_cons, List.not_mem_nil,
    false_imp_iff, implies_true, List.Pairwise.nil, and_true]
  exact ⟨by decide, fun _ _ _ => rfl⟩

theorem independent_curlFields : Independent curlFields := by
  simp only [Independent, curlFields, List.pairwise_cons, List.forall_mem_cons, List.not_mem_nil,
    false_imp_iff, implies_true, List.Pairwise.nil, and_true]
  exact ⟨by decide, fun _ _ _ => rfl⟩

theorem independent_detectorFields : Independent detectorFields := by
  simp only [Independent, detectorFields, List.pairwise_cons, List.forall_mem_cons, List.not_mem_nil,
    false_imp_iff, implies_true, List.Pairwise.nil, and_true]
  refine ⟨⟨?_, ?_⟩, ?_⟩ <;> exact ⟨by decide, fun _ _ _ => rfl⟩

theorem independent_fields : Independent fields := by
  simp only [Independent, fields, List.pairwise_cons, List.forall_mem_cons, List.not_mem_nil,
    false_imp_iff, implies_true, List.Pairwise.nil, and_true]
  refine ⟨⟨?_, ?_⟩, ?_⟩ <;> exact ⟨by decide, fun _ _ _ => rfl⟩

theorem faithful_guzzle : Faithful 3 (decodeRecord guzzleFields .guzzle {}) := by
  apply faithful_record independent_guzzleFields
  simp only [guzzleFields, List.forall_mem_cons]
  exact ⟨faithful_flag.deeper, faithful_list, faithful_list,
    List.forall_mem_nil _⟩

theorem faithful_symfony : Faithful 3 (decodeRecord symfonyFields .symfony {}) := by
  apply faithful_record independent_symfonyFields
  simp only [symfonyFields, List.forall_mem_cons]
  exact ⟨faithful_flag.deeper, (faithful_text .text).deeper, List.forall_mem_nil _⟩

theorem faithful_curl : Faithful 3 (decodeRecord curlFields .curl {}) := by
  apply faithful_record independent_curlFields
  simp only [curlFields, List.forall_mem_cons]
  exact ⟨faithful_flag.deeper, faithful_list, List.forall_mem_nil _⟩

theorem faithful_detectors : Faithful 4 (decodeRecord detectorFields .detectors {}) := by
  apply faithful_record independent_detectorFields
  simp only [detectorFields, List.forall_mem_cons]
  exact ⟨faithful_guzzle, faithful_symfony, faithful_curl,
    List.forall_mem_nil _⟩

/-- How far down the settings go: settings, detectors, a detector, a list and its texts. -/
def levels : Nat := 5

/-- **Settings that are restated** have the same values. -/
theorem faithful_settings : Faithful levels (decodeRecord fields .settings {}) := by
  apply faithful_record independent_fields
  simp only [fields, List.forall_mem_cons]
  exact ⟨(faithful_text .text).deeper.deeper.deeper, faithful_list.deeper.deeper,
    faithful_detectors, List.forall_mem_nil _⟩

end Settings

end TimeoutAudit
