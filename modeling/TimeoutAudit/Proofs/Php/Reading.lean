import TimeoutAudit.Php.Reader

/-!
# What readers read

A reader that succeeds has taken a forest off the front of its input and left the rest.  `Reads` is
this relation, without the proof that a `Reading` carries along.  It has one rule for every way in
which readers are put together, so that what a rule of the grammar reads can be put together from
what its parts read, and no proof about the grammar has to open a reader.
-/

set_option autoImplicit false

namespace TimeoutAudit.Php

/-- A reader takes a forest off the front of its input and leaves the rest. -/
def Reads (reader : Reader) (input : List Token) (forest : List Node) (rest : List Token) : Prop :=
  ∃ split, reader input = .ok ⟨forest, rest, split⟩

variable {input middle rest steps : List Token} {forest before after : List Node} {node : Node}
  {first : Token} {reader other : Reader} {test : List Token → Bool} {kind : Kind}

/-! ## Looking ahead -/

theorem Token.isExtra_of_symbol {spelling : String} (symbol : first.lexeme = .symbol spelling) :
    first.isExtra = false := by
  rw [isExtra, symbol]

theorem Token.isExtra_of_word {folded : String} (word : first.lexeme = .word folded) :
    first.isExtra = false := by
  rw [isExtra, word]

namespace Reader

theorem skipExtras_cons (plain : first.isExtra = false) :
    skipExtras (first :: rest) = first :: rest := by
  rw [skipExtras, List.dropWhile_cons_of_neg]
  rw [plain]
  exact Bool.false_ne_true

theorem next?_cons (plain : first.isExtra = false) : next? (first :: rest) = some first := by
  rw [next?, skipExtras_cons plain, List.head?_cons]

theorem second?_cons (plain : first.isExtra = false) :
    second? (first :: rest) = next? rest := by
  rw [second?, skipExtras_cons plain, List.drop_one, List.tail_cons]

theorem atSymbol_cons (plain : first.isExtra = false) (spelling : String) :
    atSymbol spelling (first :: rest) = first.isSymbol spelling := by
  rw [atSymbol, next?_cons plain, Option.any_some]

end Reader

namespace Reads

open Reader

/-! ## The tokens of a forest -/

/-- What is read and what is left are the input. -/
theorem tokens_append (reads : Reads reader input forest rest) :
    Node.forestTokens forest ++ rest = input := by
  obtain ⟨split, -⟩ := reads
  exact split

theorem tokens_eq (reads : Reads reader input [node] rest) {taken : List Token}
    (split : input = taken ++ rest) : node.tokens = taken := by
  have whole := reads.tokens_append
  rw [forestTokens_cons, forestTokens_nil, List.append_nil, split] at whole
  exact List.append_cancel_right whole

/-! ## Single tokens -/

theorem nothing : Reads Reader.nothing input [] input := ⟨_, rfl⟩

theorem token {accept : Token → Option Kind} (plain : first.isExtra = false)
    (accepted : accept first = some kind) :
    Reads (Reader.token accept) (first :: rest) [.ofToken kind first] rest := by
  refine ⟨by simp, ?_⟩
  simp only [Reader.token, plain, accepted, Bool.false_eq_true, if_false]

theorem symbol {spelling : String} (is : first.lexeme = .symbol spelling) :
    Reads (Reader.symbol spelling) (first :: rest) [.ofToken .mark first] rest := by
  apply token (Token.isExtra_of_symbol is)
  simp [Token.isSymbol, is]

theorem word {folded : String} (is : first.lexeme = .word folded) :
    Reads (Reader.word kind) (first :: rest) [.ofToken kind first] rest := by
  apply token (Token.isExtra_of_word is)
  simp [isWord, is]

theorem anyMark (plain : first.isExtra = false) :
    Reads Reader.anyMark (first :: rest) [.ofToken .mark first] rest :=
  token plain rfl

theorem lexeme (plain : first.isExtra = false) :
    Reads (Reader.lexeme first.lexeme kind) (first :: rest) [.ofToken kind first] rest := by
  apply token plain
  simp

/-! ## Combinations -/

theorem andThen (one : Reads reader input before middle) (two : Reads other middle after rest) :
    Reads (reader >> other) input (before ++ after) rest := by
  obtain ⟨split, read⟩ := one
  obtain ⟨splitAfter, readAfter⟩ := two
  refine ⟨by rw [forestTokens_append, List.append_assoc, splitAfter, split], ?_⟩
  show Reader.andThen reader other input = _
  rw [Reader.andThen, read]
  dsimp only
  rw [readAfter]
  rfl

theorem nodeBy {kindOf : List Node → Kind} (inner : Reads reader input forest rest) :
    Reads (Reader.nodeBy kindOf reader) input (enclose (kindOf forest) forest) rest := by
  obtain ⟨split, read⟩ := inner
  refine ⟨by rw [forestTokens_enclose, split], ?_⟩
  rw [Reader.nodeBy, read]
  rfl

theorem playing {field : Field} (inner : Reads reader input forest rest) :
    Reads (Reader.playing field reader) input (assign field forest) rest := by
  obtain ⟨split, read⟩ := inner
  refine ⟨by rw [forestTokens_assign, split], ?_⟩
  rw [Reader.playing, read]
  rfl

theorem choose_yes {no : Reader} (holds : test input = true)
    (yes : Reads reader input forest rest) :
    Reads (Reader.choose test reader no) input forest rest := by
  obtain ⟨split, read⟩ := yes
  exact ⟨split, by rw [Reader.choose, if_pos holds, read]⟩

theorem choose_no {yes : Reader} (fails : test input = false)
    (no : Reads reader input forest rest) :
    Reads (Reader.choose test yes reader) input forest rest := by
  obtain ⟨split, read⟩ := no
  refine ⟨split, ?_⟩
  rw [Reader.choose, fails, if_neg Bool.false_ne_true, read]

theorem when_no {yes : Reader} (fails : test input = false) :
    Reads (Reader.when test yes) input [] input :=
  choose_no fails nothing

theorem located (inner : Reads reader input forest rest) :
    Reads (Reader.located reader) input forest rest := by
  obtain ⟨split, read⟩ := inner
  exact ⟨split, by rw [Reader.located, read]⟩

theorem check {sound : Node → List Token → Bool} (inner : Reads reader input [node] rest)
    (passes : sound node rest = true) : Reads (Reader.check sound reader) input [node] rest := by
  obtain ⟨split, read⟩ := inner
  refine ⟨split, ?_⟩
  rw [Reader.check, read]
  simp [Reading.root?, passes]

/-! ## Repetitions -/

theorem items_stop (stops : test input = true) :
    Reads (Reader.itemsWithin test reader steps) input [] input := by
  cases steps with
  | nil => exact choose_yes stops nothing
  | cons step steps => exact choose_yes stops nothing

theorem items_more {step : Token} (goesOn : test input = false)
    (item : Reads reader input before middle)
    (others : Reads (Reader.itemsWithin test reader steps) middle after rest) :
    Reads (Reader.itemsWithin test reader (step :: steps)) input (before ++ after) rest :=
  choose_no goesOn (item.andThen others)

theorem commas_last {step : Token} (item : Reads reader input forest rest)
    (noComma : atSymbol "," rest = false) :
    Reads (Reader.commasWithin test reader (step :: steps)) input forest rest := by
  have reads : Reads (Reader.commasWithin test reader (step :: steps)) input (forest ++ []) rest :=
    item.andThen (when_no noComma)
  rwa [List.append_nil] at reads

theorem commas_more {step comma : Token} (item : Reads reader input before (comma :: middle))
    (is : comma.lexeme = .symbol ",") (goesOn : test middle = false)
    (others : Reads (Reader.commasWithin test reader steps) middle after rest) :
    Reads (Reader.commasWithin test reader (step :: steps)) input
      (before ++ .ofToken .mark comma :: after) rest := by
  refine item.andThen (choose_yes ?_ ((symbol is).andThen (choose_no goesOn others)))
  rw [atSymbol_cons (Token.isExtra_of_symbol is)]
  simp [Token.isSymbol, is]

end Reads

/-! ## Growth -/

/-- A forest, with the given input behind it, grows into another one and leaves the rest. -/
def Grows (growth : Node → List Token → Option Reader.Growth) (steps : List Token)
    (before : List Node) (middle : List Token) (after : List Node) (rest : List Token) : Prop :=
  ∀ (input : List Token) (split : Node.forestTokens before ++ middle = input),
    ∃ splitAfter, Reader.growWithin growth steps (⟨before, middle, split⟩ : Reading input) =
      .ok ⟨after, rest, splitAfter⟩

namespace Grows

variable {growth : Node → List Token → Option Reader.Growth}

theorem stop (ends : growth node rest = none) : Grows growth steps [node] rest [node] rest := by
  intro input split
  refine ⟨split, ?_⟩
  cases steps with
  | nil => rfl
  | cons step steps => simp [Reader.growWithin, Reading.root?, ends]

/-- The tree so far, in the part that it plays in the larger one. -/
def part (field : Option Field) (node : Node) : List Node :=
  match field with
  | some field => assign field [node]
  | none => [node]

theorem forestTokens_part (field : Option Field) (node : Node) :
    Node.forestTokens (part field node) = Node.forestTokens [node] := by
  cases field with
  | none => rfl
  | some field => exact forestTokens_assign field [node]

theorem step {found : Reader.Growth} {trees : List Node} {one : Token}
    (goesOn : growth node input = some found) (more : Reads found.more input trees middle)
    (others : Grows growth steps (enclose (found.kind trees) (part found.field node ++ trees))
      middle after rest) : Grows growth (one :: steps) [node] input after rest := by
  intro whole split
  obtain ⟨moreSplit, read⟩ := more
  have grownSplit : Node.forestTokens (enclose (found.kind trees) (part found.field node ++ trees))
      ++ middle = whole := by
    rw [forestTokens_enclose, forestTokens_append, forestTokens_part, List.append_assoc, moreSplit,
      split]
  obtain ⟨splitAfter, grown⟩ := others whole grownSplit
  refine ⟨splitAfter, ?_⟩
  have root : (Reading.root? (⟨[node], input, split⟩ : Reading whole)).bind
      (fun root => growth root input) = some found := goesOn
  rw [Reader.growWithin, root]
  obtain ⟨field, reader, kindOf⟩ := found
  cases field with
  | none =>
      dsimp only at read ⊢
      rw [read]
      exact grown
  | some field =>
      dsimp only at read ⊢
      rw [show reader (Reading.assigned (⟨[node], input, split⟩ : Reading whole) field).rest =
        .ok ⟨trees, middle, moreSplit⟩ from read]
      exact grown

end Grows

theorem Reads.grow {growth : Node → List Token → Option Reader.Growth}
    (start : Reads reader input before middle)
    (grows : Grows growth middle before middle after rest) :
    Reads (Reader.grow reader growth) input after rest := by
  obtain ⟨split, read⟩ := start
  obtain ⟨splitAfter, grown⟩ := grows input split
  exact ⟨splitAfter, by rw [Reader.grow, read]; exact grown⟩

end TimeoutAudit.Php
