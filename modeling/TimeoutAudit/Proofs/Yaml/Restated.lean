import Mathlib.Data.List.Forall2
import Mathlib.Data.List.Perm.Basic
import TimeoutAudit.Yaml.Node

/-!
# Documents that say the same

The places of nodes say nothing, and neither does the order of the entries of a mapping; an alias
says what its node says, and a mapping without entries need not be written at all
(`Document.Restates`).  Two documents are compared down to a depth, since an alias may stand below
its own node.

That one node restates another can be tested (`Document.restates_of_test`).
-/

set_option autoImplicit false

namespace TimeoutAudit.Yaml

/-- Whether a node says what another one says, given when nodes below them do. -/
inductive Node.Matches (below : Node → Node → Prop) : Node → Node → Prop where
  | scalar (mark mark' : Mark) (style : Style) (tag : Option (List Char)) (value : List Char) :
      Matches below (.scalar mark style tag value) (.scalar mark' style tag value)
  | sequence {mark mark' : Mark} {items items' : List Node}
      (same : List.Forall₂ below items items') :
      Matches below (.sequence mark items) (.sequence mark' items')
  | mapping {mark mark' : Mark} {entries reordered entries' : List (Node × Node)}
      (perm : entries.Perm reordered)
      (same : List.Forall₂
        (fun entry entry' => below entry.1 entry'.1 ∧ below entry.2 entry'.2) reordered entries') :
      Matches below (.mapping mark entries) (.mapping mark' entries')
  | unwritten (mark mark' : Mark) (tag : Option (List Char)) :
      Matches below (.mapping mark []) (.scalar mark' .plain tag [])

/-- Whether a node of another document says what a node of a document says, as far down as the
depth. -/
def Document.Restates (document other : Document) : Nat → Node → Node → Prop
  | 0, _, _ => True
  | depth + 1, node, node' =>
    Node.Matches (document.Restates other depth) (document.resolve node) (other.resolve node')

theorem Node.Matches.mono {below below' : Node → Node → Prop} {node node' : Node}
    (weaker : ∀ node node', below node node' → below' node node')
    (same : Node.Matches below node node') : Node.Matches below' node node' := by
  cases same with
  | scalar => exact .scalar ..
  | sequence same => exact .sequence (same.imp weaker)
  | mapping perm same =>
      exact .mapping perm (same.imp fun _ _ both => ⟨weaker _ _ both.1, weaker _ _ both.2⟩)
  | unwritten => exact .unwritten ..

/-- What is restated to a depth is restated one level less deep. -/
theorem Document.Restates.less {document other : Document} {depth : Nat} {node node' : Node}
    (same : document.Restates other (depth + 1) node node') :
    document.Restates other depth node node' := by
  induction depth generalizing node node' with
  | zero => trivial
  | succ depth ih => exact Node.Matches.mono (fun _ _ => ih) same

/-! ## A test -/

/-- Whether each element of the second list can be given its own element of the first: the first
one that is left and related to it. -/
def pairUp {α β : Type} (related : α → β → Bool) : List α → List β → Bool
  | firsts, [] => firsts.isEmpty
  | firsts, second :: rest =>
    match firsts.findIdx? fun first => related first second with
    | none => false
    | some index => pairUp related (firsts.eraseIdx index) rest

theorem exists_perm_of_pairUp {α β : Type} {related : α → β → Bool} {firsts : List α}
    {seconds : List β} (paired : pairUp related firsts seconds = true) :
    ∃ reordered, firsts.Perm reordered ∧
      List.Forall₂ (fun first second => related first second = true) reordered seconds := by
  induction seconds generalizing firsts with
  | nil =>
      obtain rfl : firsts = [] := by simpa [pairUp] using paired
      exact ⟨[], .refl _, .nil⟩
  | cons second rest ih =>
      rw [pairUp] at paired
      cases found : firsts.findIdx? fun first => related first second with
      | none => simp [found] at paired
      | some index =>
          simp only [found] at paired
          obtain ⟨inside, fits, -⟩ := List.findIdx?_eq_some_iff_getElem.mp found
          obtain ⟨reordered, perm, same⟩ := ih paired
          refine ⟨firsts[index] :: reordered, ?_, .cons fits same⟩
          exact (List.getElem_cons_eraseIdx_perm inside).symm.trans (perm.cons _)

/-- A test for `Node.Matches`. -/
def Node.testMatch (below : Node → Node → Bool) : Node → Node → Bool
  | .scalar _ style tag value, .scalar _ style' tag' value' =>
    decide (style = style' ∧ tag = tag' ∧ value = value')
  | .sequence _ items, .sequence _ items' =>
    items.length == items'.length && (items.zip items').all fun pair => below pair.1 pair.2
  | .mapping _ entries, .mapping _ entries' =>
    pairUp (fun entry entry' => below entry.1 entry'.1 && below entry.2 entry'.2) entries entries'
  | .mapping _ [], .scalar _ .plain _ [] => true
  | _, _ => false

theorem Node.matches_of_testMatch {below : Node → Node → Bool} {node node' : Node}
    (test : testMatch below node node' = true) :
    Matches (fun node node' => below node node' = true) node node' := by
  unfold testMatch at test
  split at test
  case h_1 mark style tag value mark' style' tag' value' =>
      obtain ⟨rfl, rfl, rfl⟩ := of_decide_eq_true test
      exact .scalar ..
  case h_2 mark items mark' items' =>
      obtain ⟨lengths, related⟩ := Bool.and_eq_true_iff.mp test
      refine .sequence (List.forall₂_iff_zip.mpr ⟨by simpa using lengths, fun member => ?_⟩)
      exact List.all_eq_true.mp related _ member
  case h_3 mark entries mark' entries' =>
      obtain ⟨reordered, perm, same⟩ := exists_perm_of_pairUp test
      exact .mapping perm (same.imp fun _ _ both => Bool.and_eq_true_iff.mp both)
  case h_4 => exact .unwritten ..
  case h_5 => cases test

/-- A test for `Document.Restates`. -/
def Document.testRestates (document other : Document) : Nat → Node → Node → Bool
  | 0, _, _ => true
  | depth + 1, node, node' =>
    (document.resolve node).testMatch (document.testRestates other depth) (other.resolve node')

theorem Document.restates_of_test {document other : Document} {depth : Nat} {node node' : Node}
    (test : document.testRestates other depth node node' = true) :
    document.Restates other depth node node' := by
  induction depth generalizing node node' with
  | zero => trivial
  | succ depth ih => exact Node.Matches.mono (fun _ _ => ih) (Node.matches_of_testMatch test)

end TimeoutAudit.Yaml
