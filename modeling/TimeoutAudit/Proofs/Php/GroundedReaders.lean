import Mathlib.Data.List.TakeWhile
import TimeoutAudit.Php.Parse
import TimeoutAudit.Proofs.Syntax.Calls

/-!
# Readers that build no call without a token

A node stands in the source by its first token, so a node without tokens stands nowhere.  There
are such nodes, for the holes of a pattern.  A tree is grounded if no call in it is one of them
(`Node.Grounded`), and a reader is if it builds grounded trees only.

`Reader.Grounded` is a class, so that instance search goes down a rule of the grammar along the
combinators that it is made of: each combinator has its instance here.  An inner node is grounded
unless it is a call, and a construct that grows into a call has to take a token on the way
(`Reader.Consumes`, `Reader.Growth.Grounded`).
-/

set_option autoImplicit false

namespace TimeoutAudit.Php

open Node (forestTokens)

/-! ## Trees -/

/-- Kinds of nodes that a call site can be read off. -/
abbrev Kind.isCall : Kind → Bool
  | .functionCall | .methodCall | .nullsafeMethodCall => true
  | _ => false

/-- Every call in the tree has a token. -/
def Node.Grounded (root : Node) : Prop :=
  ∀ node : Node, node ∈ root.subtrees → node.kind.isCall = true → node.tokens ≠ []

namespace Node.Grounded

variable {root : Node} {label : Label} {children forest : List Node}

theorem node (own : label.kind.isCall = true → Node.tokens (.node label children) ≠ [])
    (below : ∀ child ∈ children, child.Grounded) : Node.Grounded (.node label children) := by
  intro node member isCall
  rcases Tree.mem_subtrees_node.mp member with rfl | ⟨child, inside, deeper⟩
  · exact own isCall
  · exact below child inside node deeper isCall

theorem ofToken (kind : Kind) (token : Token) : (Node.ofToken kind token).Grounded := by
  refine node (fun _ => ?_) (fun _ member => nomatch member)
  exact tokens_ofToken kind token ▸ List.cons_ne_nil token []

theorem ofKind {kind : Kind} (own : kind.isCall = true → forestTokens children ≠ [])
    (below : ∀ child ∈ children, child.Grounded) : (Node.ofKind kind children).Grounded := by
  refine node (fun isCall => ?_) below
  exact tokens_ofKind kind children ▸ own isCall

theorem relabel_field (grounded : root.Grounded) (field : Field) :
    Node.Grounded (root.relabel fun label => { label with field := some field }) := by
  obtain ⟨label, children⟩ := root
  have own := grounded (.node label children) (Tree.mem_subtrees_node.mpr (.inl rfl))
  rw [← tokens_relabel_field field] at own
  refine node own fun child member node deeper => ?_
  exact grounded node (Tree.mem_subtrees_node.mpr (.inr ⟨child, member, deeper⟩))

theorem enclose {kind : Kind}
    (own : kind.isCall = true → forestTokens (forest.dropWhile Node.isExtra) ≠ [])
    (below : ∀ tree ∈ forest, tree.Grounded) : ∀ tree ∈ Php.enclose kind forest, tree.Grounded := by
  intro tree member
  rw [Php.enclose, List.mem_append, List.mem_singleton] at member
  rcases member with extra | rfl
  · exact below tree ((List.takeWhile_sublist _).mem extra)
  · exact ofKind own fun child inside => below child ((List.dropWhile_sublist _).mem inside)

theorem assign (below : ∀ tree ∈ forest, tree.Grounded) (field : Field) :
    ∀ tree ∈ Php.assign field forest, tree.Grounded := by
  intro tree member
  rw [Php.assign, List.mem_map] at member
  obtain ⟨before, inside, rfl⟩ := member
  split
  · exact below before inside
  · exact (below before inside).relabel_field field

end Node.Grounded

/-! ## Readers -/

namespace Reader

/-! ### What a reading is made of -/

section Made

variable {input : List Token} {reading : Reading input} {first second : Reader}

theorem exists_of_token {accept : Token → Option Kind} (read : token accept input = .ok reading) :
    ∃ (extras : List Token) (one : Token) (kind : Kind), accept one = some kind ∧
      reading.forest = extras.map Node.ofExtra ++ [.ofToken kind one] := by
  induction input with
  | nil => cases read
  | cons one rest ih =>
      unfold token at read
      split at read
      · split at read
        · cases read
        · next others readOthers =>
            cases read
            obtain ⟨extras, last, kind, accepted, made⟩ := ih readOthers
            exact ⟨one :: extras, last, kind, accepted, congrArg (Node.ofExtra one :: ·) made⟩
      · split at read
        · next kind accepted =>
            cases read
            exact ⟨[], one, kind, accepted, rfl⟩
        · cases read

theorem exists_of_extras (read : extras input = .ok reading) :
    ∃ tokens : List Token, reading.forest = tokens.map Node.ofExtra := by
  induction input with
  | nil =>
      cases read
      exact ⟨[], rfl⟩
  | cons one rest ih =>
      unfold extras at read
      split at read
      · split at read
        · cases read
        · next others readOthers =>
            cases read
            obtain ⟨tokens, made⟩ := ih readOthers
            exact ⟨one :: tokens, congrArg (Node.ofExtra one :: ·) made⟩
      · cases read
        exact ⟨[], rfl⟩

theorem exists_of_andThen (read : (first >> second : Reader) input = .ok reading) :
    ∃ before after, first input = .ok before ∧ second before.rest = .ok after ∧
      reading.forest = before.forest ++ after.forest := by
  change first.andThen second input = .ok reading at read
  unfold andThen at read
  split at read
  · cases read
  · next before readBefore =>
      split at read
      · cases read
      · next after readAfter =>
          cases read
          exact ⟨before, after, readBefore, readAfter, rfl⟩

theorem exists_of_nodeBy {kind : List Node → Kind} (read : nodeBy kind first input = .ok reading) :
    ∃ inner, first input = .ok inner ∧
      reading.forest = enclose (kind inner.forest) inner.forest := by
  unfold nodeBy at read
  split at read
  · cases read
  · next inner readInner =>
      cases read
      exact ⟨inner, readInner, rfl⟩

theorem exists_of_playing {field : Field} (read : playing field first input = .ok reading) :
    ∃ inner, first input = .ok inner ∧ reading.forest = assign field inner.forest := by
  unfold playing at read
  split at read
  · cases read
  · next inner readInner =>
      cases read
      exact ⟨inner, readInner, rfl⟩

end Made

/-! ### Readers of grounded trees -/

/-- Every call in the trees that the reader builds has a token. -/
class Grounded (reader : Reader) : Prop where
  trees {input : List Token} {reading : Reading input} (read : reader input = .ok reading) :
    ∀ tree ∈ reading.forest, tree.Grounded

/-- A Boolean that is false, so that instance search can test the kind of a node. -/
class Fails (test : Bool) : Prop where
  eq_false : test = false

instance : Fails false := ⟨rfl⟩

namespace Grounded

variable {first second : Reader} {test : List Token → Bool}

/-! ### Single tokens -/

instance nothing : Grounded Reader.nothing where
  trees read := by
    cases read
    exact fun _ member => nomatch member

instance refuse : Grounded Reader.refuse where
  trees read := nomatch read

instance token (accept : Token → Option Kind) : Grounded (Reader.token accept) where
  trees read := by
    obtain ⟨extras, one, kind, -, made⟩ := exists_of_token read
    rw [made, List.forall_mem_append, List.forall_mem_map]
    exact ⟨fun extra _ => .ofToken _ extra, List.forall_mem_singleton.mpr (.ofToken kind one)⟩

instance extras : Grounded Reader.extras where
  trees read := by
    obtain ⟨tokens, made⟩ := exists_of_extras read
    rw [made, List.forall_mem_map]
    exact fun extra _ => .ofToken _ extra

instance symbol (spelling : String) : Grounded (Reader.symbol spelling) := token _

instance symbolAs (kind : Kind) (spelling : String) : Grounded (Reader.symbolAs kind spelling) :=
  token _

instance keyword (spelling : String) : Grounded (Reader.keyword spelling) := token _

instance word (kind : Kind) : Grounded (Reader.word kind) := token _

instance anyMark : Grounded Reader.anyMark := token _

instance lexeme (expected : Lexeme) (kind : Kind) : Grounded (Reader.lexeme expected kind) :=
  token _

/-! ### Combinations -/

/-- A reader that goes by its input is grounded if it always goes as a grounded reader. -/
theorem of_forall_input {reader : Reader}
    (goesAs : ∀ input, ∃ other : Reader, Grounded other ∧ reader input = other input) :
    Grounded reader where
  trees {input reading} read := by
    obtain ⟨other, grounded, same⟩ := goesAs input
    exact grounded.trees (same ▸ read)

instance andThen [Grounded first] [Grounded second] : Grounded (first >> second) where
  trees read := by
    obtain ⟨before, after, readBefore, readAfter, made⟩ := exists_of_andThen read
    rw [made, List.forall_mem_append]
    exact ⟨trees readBefore, trees readAfter⟩

theorem nodeBy [Grounded first] {kind : List Node → Kind}
    (noCall : ∀ forest, (kind forest).isCall = false) : Grounded (Reader.nodeBy kind first) where
  trees read := by
    obtain ⟨inner, readInner, made⟩ := exists_of_nodeBy read
    rw [made]
    refine Node.Grounded.enclose (fun isCall => ?_) (trees readInner)
    rw [noCall] at isCall
    cases isCall

instance node {kind : Kind} [noCall : Fails kind.isCall] [Grounded first] :
    Grounded (Reader.node kind first) :=
  nodeBy fun _ => noCall.eq_false

instance playing (field : Field) [Grounded first] : Grounded (Reader.playing field first) where
  trees read := by
    obtain ⟨inner, readInner, made⟩ := exists_of_playing read
    rw [made]
    exact .assign (trees readInner) field

instance choose [Grounded first] [Grounded second] : Grounded (Reader.choose test first second) :=
  of_forall_input fun input => by
    unfold Reader.choose
    split
    · exact ⟨first, inferInstance, rfl⟩
    · exact ⟨second, inferInstance, rfl⟩

instance when [Grounded first] : Grounded (Reader.when test first) := choose

instance itemsWithin [Grounded first] :
    ∀ steps, Grounded (Reader.itemsWithin test first steps)
  | [] => choose
  | _ :: steps =>
    have := itemsWithin steps
    choose

instance itemsUntil [Grounded first] : Grounded (Reader.itemsUntil test first) :=
  of_forall_input fun input => ⟨_, itemsWithin input, rfl⟩

instance commasWithin [Grounded first] :
    ∀ steps, Grounded (Reader.commasWithin test first steps)
  | [] => refuse
  | _ :: steps =>
    have := commasWithin steps
    andThen

instance commas [Grounded first] : Grounded (Reader.commas test first) :=
  of_forall_input fun input => ⟨_, commasWithin input, rfl⟩

instance listUntil (closing : String) [Grounded first] :
    Grounded (Reader.listUntil closing first) :=
  andThen

instance oneOrMore [Grounded first] : Grounded (Reader.oneOrMore first) := commas

instance joinedWithin [Grounded first] :
    ∀ steps, Grounded (Reader.joinedWithin test first steps)
  | [] => refuse
  | _ :: steps =>
    have := joinedWithin steps
    andThen

instance joined [Grounded first] : Grounded (Reader.joined test first) :=
  of_forall_input fun input => ⟨_, joinedWithin input, rfl⟩

instance check (sound : Node → List Token → Bool) [Grounded first] :
    Grounded (Reader.check sound first) where
  trees {input reading} read := by
    unfold Reader.check at read
    split at read
    · cases read
    · next inner readInner =>
        split at read
        · cases read
          exact trees readInner
        · cases read

instance located [Grounded first] : Grounded (Reader.located first) where
  trees {input reading} read := by
    unfold Reader.located at read
    split at read
    · next inner readInner =>
        cases read
        exact trees readInner
    all_goals cases read

instance closing (spelling : String) : Grounded (Reader.closing spelling) where
  trees {input reading} read := by
    unfold Reader.closing at read
    split at read
    · exact trees read
    · split at read <;> cases read

instance semicolon : Grounded Reader.semicolon where
  trees {input reading} read := by
    unfold Reader.semicolon at read
    split at read
    · cases read
    · split at read
      · exact trees read
      · split at read
        · exact trees read
        · cases read

end Grounded

/-! ### Readers that take a token -/

/-- Something that the reader builds is no extra and has a token. -/
def Consumes (reader : Reader) : Prop :=
  ∀ (input : List Token) (reading : Reading input), reader input = .ok reading →
    ∃ tree ∈ reading.forest, tree.isExtra = false ∧ tree.tokens ≠ []

/-- What was taken is still there behind the extras in front. -/
theorem forestTokens_dropWhile_ne_nil {forest : List Node}
    (taken : ∃ tree ∈ forest, tree.isExtra = false ∧ tree.tokens ≠ []) :
    forestTokens (forest.dropWhile Node.isExtra) ≠ [] := by
  obtain ⟨tree, member, plain, nonempty⟩ := taken
  rw [← forest.takeWhile_append_dropWhile (p := Node.isExtra), List.mem_append] at member
  rcases member with extra | kept
  · rw [List.mem_takeWhile_imp extra] at plain
    cases plain
  · obtain ⟨front, back, split⟩ := List.append_of_mem kept
    rw [split, forestTokens_append, forestTokens_cons]
    simp [nonempty]

namespace Consumes

variable {first second : Reader}

theorem mark {accept : Token → Option Kind}
    (marks : ∀ one kind, accept one = some kind → kind = .mark) :
    Consumes (Reader.token accept) := by
  intro input reading read
  obtain ⟨extras, one, kind, accepted, made⟩ := exists_of_token read
  obtain rfl := marks one kind accepted
  refine ⟨.ofToken .mark one, ?_, rfl, ?_⟩
  · rw [made]
    exact List.mem_append_right _ (List.mem_singleton_self _)
  · rw [tokens_ofToken]
    exact List.cons_ne_nil one []

theorem symbol (spelling : String) : Consumes (Reader.symbol spelling) := by
  refine mark fun one kind accepted => ?_
  split at accepted <;> cases accepted
  rfl

theorem anyMark : Consumes Reader.anyMark := by
  refine mark fun one kind accepted => ?_
  cases accepted
  rfl

theorem andThen (consumes : Consumes first) : Consumes (first >> second) := by
  intro input reading read
  obtain ⟨before, after, readBefore, -, made⟩ := exists_of_andThen read
  obtain ⟨tree, member, taken⟩ := consumes input before readBefore
  exact ⟨tree, made ▸ List.mem_append_left _ member, taken⟩

theorem node {kind : Kind} (consumes : Consumes first)
    (plain : ∀ children, (Node.ofKind kind children).isExtra = false) :
    Consumes (Reader.node kind first) := by
  intro input reading read
  obtain ⟨inner, readInner, made⟩ := exists_of_nodeBy read
  refine ⟨.ofKind kind (inner.forest.dropWhile Node.isExtra), ?_, plain _, ?_⟩
  · rw [made]
    exact List.mem_append_right _ (List.mem_singleton_self _)
  · rw [tokens_ofKind]
    exact forestTokens_dropWhile_ne_nil (consumes input inner readInner)

theorem playing (consumes : Consumes first) (field : Field) :
    Consumes (Reader.playing field first) := by
  intro input reading read
  obtain ⟨inner, readInner, made⟩ := exists_of_playing read
  obtain ⟨tree, member, plain, nonempty⟩ := consumes input inner readInner
  rw [made]
  refine ⟨_, List.mem_map_of_mem member, ?_⟩
  rw [plain, if_neg Bool.false_ne_true, tokens_relabel_field]
  exact ⟨by cases tree; exact plain, nonempty⟩

end Consumes

/-! ### Constructs that grow -/

/-- What is read is grounded, and if it makes a call, it takes a token. -/
structure Growth.Grounded (found : Growth) : Prop where
  more : Reader.Grounded found.more
  call : (∀ forest, (found.kind forest).isCall = false) ∨ Consumes found.more

namespace Growth.Grounded

variable {field : Option Field} {more : Reader} {kind : List Node → Kind}

theorem noCall [Reader.Grounded more] (never : ∀ forest, (kind forest).isCall = false) :
    Growth.Grounded ⟨field, more, kind⟩ :=
  ⟨inferInstance, .inl never⟩

theorem consuming [Reader.Grounded more] (consumes : Consumes more) :
    Growth.Grounded ⟨field, more, kind⟩ :=
  ⟨inferInstance, .inr consumes⟩

theorem of_none : ∀ found ∈ (none : Option Growth), found.Grounded :=
  fun _ found => nomatch found

theorem of_ite {holds : Prop} [Decidable holds] {yes : Growth} {no : Option Growth}
    (grounded : yes.Grounded) (otherwise : ∀ found ∈ no, found.Grounded) :
    ∀ found ∈ (if holds then some yes else no), found.Grounded := by
  intro found member
  split at member
  · cases member
    exact grounded
  · exact otherwise found member

end Growth.Grounded

/-- However a construct goes on, it does so by grounded readers. -/
class Growing (growth : Node → List Token → Option Growth) : Prop where
  grounded (root : Node) (input : List Token) : ∀ found ∈ growth root input, found.Grounded

section Growth

variable {growth : Node → List Token → Option Growth} [Growing growth]

theorem Grounded.growWithin {input : List Token} (steps : List Token)
    {before after : Reading input} (below : ∀ tree ∈ before.forest, tree.Grounded)
    (grown : Reader.growWithin growth steps before = .ok after) :
    ∀ tree ∈ after.forest, tree.Grounded := by
  induction steps generalizing before with
  | nil =>
      cases grown
      exact below
  | cons step steps ih =>
      unfold Reader.growWithin at grown
      split at grown
      · cases grown
        exact below
      · next found goesOn =>
          obtain ⟨root, -, finds⟩ := Option.bind_eq_some_iff.mp goesOn
          have grounded := Growing.grounded root before.rest found finds
          dsimp only at grown
          split at grown
          · cases grown
          · next right readRight =>
              refine ih (Node.Grounded.enclose (fun isCall => ?_) (List.forall_mem_append.mpr
                ⟨?_, grounded.more.trees readRight⟩)) grown
              · rcases grounded.call with noCall | consumes
                · rw [noCall] at isCall
                  cases isCall
                · obtain ⟨tree, member, taken⟩ := consumes _ _ readRight
                  exact forestTokens_dropWhile_ne_nil
                    ⟨tree, List.mem_append_right _ member, taken⟩
              · split
                · exact .assign below _
                · exact below

instance Grounded.grow {first : Reader} [Grounded first] : Grounded (Reader.grow first growth) where
  trees {input reading} read := by
    unfold Reader.grow at read
    split at read
    · cases read
    · next start readStart => exact growWithin _ (trees readStart) read

end Growth

end Reader

end TimeoutAudit.Php
