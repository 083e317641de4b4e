import TimeoutAudit.CallSite
import TimeoutAudit.Proofs.Php.Cutting

/-!
# Scripts of plain calls

A script is a list of statements, each a call of a function or a method with variables, strings and
arrays as arguments.  Names, strings and the like carry the proof that they are well-formed, so
every script can be written down: `Script.text` prints it, and `Statement.call` says which call a
statement is.  The printed script is a sequence of pieces behind gaps (`Statement.source_pieces`),
all of which the lexer cuts off (`Statement.allCut_pieces`).
-/

set_option autoImplicit false

namespace TimeoutAudit.Php.Script

open Lexer

/-! ## Words and texts -/

/-- Letters, digits and underscores of ASCII, with no digit in front. -/
def isIdentifier (text : String) : Bool :=
  match text.toList with
  | [] => false
  | first :: others =>
    (first.isAlpha || first == '_') && others.all fun c => c.isAlphanum || c == '_'

/-- A word that may follow a dollar sign. -/
structure Identifier where
  text : String
  valid : isIdentifier text = true

/-- A text in lower case. -/
def folded (text : String) : String := String.ofList (text.toList.map Char.toLower)

/-- Words that begin a construct of the language, in lower case. -/
def reserved : List String :=
  ["if", "switch", "while", "do", "for", "foreach", "goto", "continue", "break", "return", "try",
    "declare", "echo", "exit", "unset", "const", "function", "abstract", "final", "readonly",
    "class", "interface", "trait", "enum", "namespace", "use", "global", "static", "new", "clone",
    "print", "include", "include_once", "require", "require_once", "yield", "throw", "match", "fn",
    "self", "parent", "array", "list", "true", "false", "null"]

/-- The name of a function, a class or a method. -/
structure Name extends Identifier where
  free : folded text ∉ reserved

/-- A text that a source can hold. -/
structure Content where
  text : String
  noNull : '\x00' ∉ text.toList

/-! ## Values and statements -/

/-- What is passed to a call. -/
inductive Value where
  | variable (name : Identifier)
  | string (content : Content)
  | array (entries : List (Content × Value))

/-- What is called, and how. -/
inductive Target where
  /-- `f` -/
  | function (name : Name)
  /-- `\f` -/
  | rooted (name : Name)
  /-- `$v->m` -/
  | method (object : Identifier) (name : Name)
  /-- `$v?->m` -/
  | nullsafe (object : Identifier) (name : Name)
  /-- `C::k()->m` -/
  | onStatic (className factory name : Name)

/-- A call as a statement. -/
structure Statement where
  target : Target
  arguments : List Value

/-! ## The text of a script -/

mutual
/-- A value as it is written. -/
def Value.text : Value → String
  | .variable name => "$" ++ name.text
  | .string content => Literal.singleQuoted content.text
  | .array entries => "[" ++ ", ".intercalate (entryTexts entries) ++ "]"

/-- The entries of an array as they are written. -/
def entryTexts : List (Content × Value) → List String
  | [] => []
  | (key, value) :: others =>
    (Literal.singleQuoted key.text ++ " => " ++ value.text) :: entryTexts others
end

/-- What is called, as it is written. -/
def Target.text : Target → String
  | .function name => name.text
  | .rooted name => "\\" ++ name.text
  | .method object name => "$" ++ object.text ++ "->" ++ name.text
  | .nullsafe object name => "$" ++ object.text ++ "?->" ++ name.text
  | .onStatic className factory name =>
    className.text ++ "::" ++ factory.text ++ "()->" ++ name.text

/-- A statement as it is written. -/
def Statement.text (statement : Statement) : String :=
  statement.target.text ++ "(" ++ ", ".intercalate (statement.arguments.map Value.text) ++ ");"

/-- Blanks around a statement. -/
def indent (margin : Nat) : String := String.ofList (List.replicate margin ' ')

/-- A statement on lines of its own. -/
def line (margin : Nat) (statement : Statement) : String :=
  indent margin ++ statement.text ++ indent margin ++ "\n"

/-- A whole file: the opening tag and the statements. -/
def text (margin : Nat) (statements : List Statement) : String :=
  "<?php\n" ++ String.join (statements.map (line margin))

/-! ## What a script says -/

/-- A value as an argument: the keys of an array are those of its own entries. -/
def Value.denoted : Value → ArgumentValue
  | .variable _ => .other
  | .string content => .literal content.text
  | .array entries => .options (entries.map fun entry => entry.1.text)

/-- Whether a function or a method is called. -/
def Target.kind : Target → CallKind
  | .function _ | .rooted _ => .function
  | .method _ _ | .nullsafe _ _ | .onStatic _ _ _ => .method

/-- The name of what is called. -/
def Target.name : Target → String
  | .function name | .rooted name => name.text
  | .method _ name | .nullsafe _ name | .onStatic _ _ name => name.text

/-- What a method is called on. -/
def Target.receiver : Target → Option Receiver
  | .function _ | .rooted _ => none
  | .method object _ | .nullsafe object _ => some (.variable object.text)
  | .onStatic className _ _ => some (.staticCall className.text)

/-- The call that a statement is, when it starts in the given line. -/
def Statement.call (statement : Statement) (line : Nat) : CallSite where
  kind := statement.target.kind
  name := statement.target.name
  receiver := statement.target.receiver
  arguments := statement.arguments.map fun value => ⟨none, value.denoted⟩
  line := line

/-! ## Induction on values -/

mutual
/-- What is said of all values may be shown for an array from its entries. -/
@[elab_as_elim]
theorem Value.induction {motive : Value → Prop} (ofVariable : ∀ name, motive (.variable name))
    (ofString : ∀ content, motive (.string content))
    (ofArray : ∀ entries, (∀ entry ∈ entries, motive entry.2) → motive (.array entries)) :
    ∀ value, motive value
  | .variable name => ofVariable name
  | .string content => ofString content
  | .array entries => ofArray entries (Value.induction_entries ofVariable ofString ofArray entries)

theorem Value.induction_entries {motive : Value → Prop}
    (ofVariable : ∀ name, motive (.variable name))
    (ofString : ∀ content, motive (.string content))
    (ofArray : ∀ entries, (∀ entry ∈ entries, motive entry.2) → motive (.array entries)) :
    ∀ (entries : List (Content × Value)), ∀ entry ∈ entries, motive entry.2
  | (key, value) :: others, entry, member => by
      rcases List.mem_cons.mp member with rfl | later
      · exact Value.induction ofVariable ofString ofArray value
      · exact Value.induction_entries ofVariable ofString ofArray others entry later
end

/-! ## The pieces of a script -/

/-- One blank. -/
def blank : List Glyph := [.char ' ']

/-- Pieces that take the gap in front of them as it comes. -/
abbrev Phrase := List Glyph → List Spaced

/-- Phrases with commas between them, the first one behind the given gap. -/
def separated (gap : List Glyph) : List Phrase → List Spaced
  | [] => []
  | [phrase] => phrase gap
  | phrase :: next :: others =>
    phrase gap ++ .ofMark [] "," :: separated blank (next :: others)

mutual
/-- The pieces of a value. -/
def Value.pieces : Value → Phrase
  | .variable name, gap => [.ofMark gap "$", .ofName [] name.text]
  | .string content, gap => [.ofLiteral gap content.text]
  | .array entries, gap =>
    .ofMark gap "[" :: (separated [] (entryPhrases entries) ++ [.ofMark [] "]"])

/-- The pieces of the entries of an array. -/
def entryPhrases : List (Content × Value) → List Phrase
  | [] => []
  | (key, value) :: others =>
    (fun gap => .ofLiteral gap key.text :: .ofMark blank "=>" :: value.pieces blank) ::
      entryPhrases others
end

/-- The pieces of one entry. -/
def entryPieces (entry : Content × Value) : Phrase := fun gap =>
  .ofLiteral gap entry.1.text :: .ofMark blank "=>" :: entry.2.pieces blank

theorem entryPhrases_eq (entries : List (Content × Value)) :
    entryPhrases entries = entries.map entryPieces := by
  induction entries with
  | nil => simp [entryPhrases]
  | cons entry others ih =>
      rw [List.map_cons, ← ih, entryPhrases]
      rfl

theorem entryTexts_eq (entries : List (Content × Value)) :
    entryTexts entries = entries.map fun entry =>
      Literal.singleQuoted entry.1.text ++ " => " ++ entry.2.text := by
  induction entries with
  | nil => simp [entryTexts]
  | cons entry others ih =>
      rw [List.map_cons, ← ih, entryTexts]

/-- The pieces of what is called. -/
def Target.pieces : Target → Phrase
  | .function name, gap => [.ofName gap name.text]
  | .rooted name, gap => [.ofMark gap "\\", .ofName [] name.text]
  | .method object name, gap =>
    [.ofMark gap "$", .ofName [] object.text, .ofMark [] "->", .ofName [] name.text]
  | .nullsafe object name, gap =>
    [.ofMark gap "$", .ofName [] object.text, .ofMark [] "?->", .ofName [] name.text]
  | .onStatic className factory name, gap =>
    [.ofName gap className.text, .ofMark [] "::", .ofName [] factory.text, .ofMark [] "(",
      .ofMark [] ")", .ofMark [] "->", .ofName [] name.text]

/-- The pieces of arguments in parentheses. -/
def argumentPieces (values : List Value) : List Spaced :=
  .ofMark [] "(" :: (separated [] (values.map Value.pieces) ++ [.ofMark [] ")"])

/-- The pieces of a statement. -/
def Statement.pieces (statement : Statement) : Phrase := fun gap =>
  statement.target.pieces gap ++ (argumentPieces statement.arguments ++ [.ofMark [] ";"])

/-! ## The pieces spell the text -/

theorem ofString_append (first second : String) :
    Glyph.ofString (first ++ second) = Glyph.ofString first ++ Glyph.ofString second := by
  simp [Glyph.ofString]

theorem source_ofMark (gap : List Glyph) (spelling : String) (others : List Spaced) :
    Spaced.source (.ofMark gap spelling :: others) =
      gap ++ Glyph.ofString spelling ++ Spaced.source others := by
  rw [Spaced.source_cons, Spaced.ofMark]

theorem source_ofName (gap : List Glyph) (name : String) (others : List Spaced) :
    Spaced.source (.ofName gap name :: others) =
      gap ++ Glyph.ofString name ++ Spaced.source others := by
  rw [Spaced.source_cons, Spaced.ofName]

theorem source_ofLiteral (gap : List Glyph) (content : String) (others : List Spaced) :
    Spaced.source (.ofLiteral gap content :: others) =
      gap ++ Glyph.ofString (Literal.singleQuoted content) ++ Spaced.source others := by
  rw [Spaced.source_cons, Spaced.ofLiteral]

section Separated

variable {α : Type} {phrase : α → Phrase} {spelling : α → String}

theorem source_separated_cons {first : α} {others : List α}
    (spelled : ∀ item ∈ first :: others, ∀ gap,
      Spaced.source (phrase item gap) = gap ++ Glyph.ofString (spelling item)) (gap : List Glyph) :
    Spaced.source (separated gap ((first :: others).map phrase)) =
      gap ++ Glyph.ofString (", ".intercalate ((first :: others).map spelling)) := by
  have here := spelled first List.mem_cons_self gap
  induction others generalizing first gap with
  | nil =>
      rw [List.map_singleton, List.map_singleton, String.intercalate_singleton]
      exact here
  | cons next others ih =>
      have later : ∀ item ∈ next :: others, ∀ gap,
          Spaced.source (phrase item gap) = gap ++ Glyph.ofString (spelling item) :=
        fun item member => spelled item (List.mem_cons_of_mem first member)
      have there := ih later blank (later next List.mem_cons_self blank)
      have comma : Glyph.ofString ", " = Glyph.ofString "," ++ blank := rfl
      simp only [List.map_cons] at there ⊢
      rw [separated, Spaced.source_append, here, source_ofMark, there, String.intercalate_cons_cons,
        ofString_append, ofString_append, comma]
      simp only [List.append_assoc, List.nil_append]

theorem source_separated {items : List α} (spelled : ∀ item ∈ items, ∀ gap,
      Spaced.source (phrase item gap) = gap ++ Glyph.ofString (spelling item)) :
    Spaced.source (separated [] (items.map phrase)) =
      Glyph.ofString (", ".intercalate (items.map spelling)) := by
  cases items with
  | nil => rfl
  | cons first others => exact source_separated_cons spelled []

end Separated

theorem Value.source_pieces (value : Value) (gap : List Glyph) :
    Spaced.source (value.pieces gap) = gap ++ Glyph.ofString value.text := by
  induction value using Value.induction generalizing gap with
  | ofVariable name =>
      rw [pieces, text, source_ofMark, source_ofName, ofString_append, Spaced.source_nil]
      simp only [List.append_assoc, List.nil_append, List.append_nil]
  | ofString content =>
      rw [pieces, text, source_ofLiteral, Spaced.source_nil, List.append_nil]
  | ofArray entries ih =>
      have entry : ∀ entry ∈ entries, ∀ gap, Spaced.source (entryPieces entry gap) =
          gap ++ Glyph.ofString (Literal.singleQuoted entry.1.text ++ " => " ++ entry.2.text) := by
        intro entry member gap
        have arrow : Glyph.ofString " => " = blank ++ Glyph.ofString "=>" ++ blank := rfl
        rw [entryPieces, source_ofLiteral, source_ofMark, ih entry member, ofString_append,
          ofString_append, arrow]
        simp only [List.append_assoc]
      rw [pieces, text, source_ofMark, Spaced.source_append, entryPhrases_eq, entryTexts_eq,
        source_separated entry, ofString_append, ofString_append, source_ofMark, Spaced.source_nil]
      simp only [List.append_assoc, List.nil_append, List.append_nil]

theorem Target.source_pieces (target : Target) (gap : List Glyph) :
    Spaced.source (target.pieces gap) = gap ++ Glyph.ofString target.text := by
  have called : Glyph.ofString "()->" =
      Glyph.ofString "(" ++ (Glyph.ofString ")" ++ Glyph.ofString "->") := rfl
  cases target with
  | onStatic className factory name =>
      simp only [pieces, text, source_ofMark, source_ofName, ofString_append, Spaced.source_nil,
        List.append_assoc, List.nil_append, List.append_nil, called]
  | _ =>
      simp only [pieces, text, source_ofMark, source_ofName, ofString_append, Spaced.source_nil,
        List.append_assoc, List.nil_append, List.append_nil]

/-- **The pieces of a statement spell it.** -/
theorem Statement.source_pieces (statement : Statement) (gap : List Glyph) :
    Spaced.source (statement.pieces gap) = gap ++ Glyph.ofString statement.text := by
  have ending : Glyph.ofString ");" = Glyph.ofString ")" ++ Glyph.ofString ";" := rfl
  rw [pieces, argumentPieces, text, Spaced.source_append, statement.target.source_pieces,
    Spaced.source_append, source_ofMark, Spaced.source_append,
    source_separated fun value _ => value.source_pieces, source_ofMark, source_ofMark,
    Spaced.source_nil]
  simp only [ofString_append, ending, List.append_assoc, List.nil_append, List.append_nil]

/-! ## The pieces are cut off -/

theorem blank_blank : Spaced.Blank blank := by
  intro glyph member
  obtain rfl := List.mem_singleton.mp member
  rfl

theorem isNameStart_of_isAlpha {c : Char} (letter : (c.isAlpha || c == '_') = true) :
    isNameStart (.char c) = true := by
  have classes : ((c.isUpper || c.isLower) || c == '_') = true := letter
  rw [Bool.or_eq_true, Bool.or_eq_true] at classes
  simp only [isNameStart, Bool.or_eq_true, Bool.and_eq_true, decide_eq_true_eq]
  rcases classes with (upper | lower) | underscore
  · have range : 'A' ≤ c ∧ c ≤ 'Z' := of_decide_eq_true upper
    exact .inl (.inr range)
  · have bounds := Bool.and_eq_true_iff.mp lower
    have range : 'a' ≤ c ∧ c ≤ 'z' := ⟨of_decide_eq_true bounds.1, of_decide_eq_true bounds.2⟩
    exact .inl (.inl (.inr range))
  · exact .inl (.inl (.inl underscore))

theorem isNamePart_of_isAlphanum {c : Char} (part : (c.isAlphanum || c == '_') = true) :
    isNamePart (.char c) = true := by
  rw [isNamePart, Bool.or_eq_true]
  rw [Char.isAlphanum, Bool.or_eq_true, Bool.or_eq_true] at part
  rcases part with (letter | digit) | underscore
  · exact .inl (isNameStart_of_isAlpha (by rw [letter, Bool.true_or]))
  · exact .inr digit
  · exact .inl (isNameStart_of_isAlpha (by rw [underscore, Bool.or_true]))

theorem Identifier.cuts (identifier : Identifier) {gap following : List Glyph}
    (isBlank : Spaced.Blank gap) (ends : Spaced.EndsName following) :
    (Spaced.ofName gap identifier.text).Cuts following := by
  have valid := identifier.valid
  unfold isIdentifier at valid
  split at valid
  · cases valid
  · next first others spelled =>
      rw [Bool.and_eq_true, List.all_eq_true] at valid
      exact Spaced.cuts_name isBlank spelled (isNameStart_of_isAlpha valid.1)
        (fun c member => isNamePart_of_isAlphanum (valid.2 c member)) ends

/-- A phrase is cut off behind any gap, if what follows it ends a name. -/
def IsCut (phrase : Phrase) : Prop :=
  ∀ gap following, Spaced.Blank gap → Spaced.EndsName following →
    Spaced.AllCut (phrase gap) following

theorem isCut_separated {phrases : List Phrase} (each : ∀ phrase ∈ phrases, IsCut phrase) :
    IsCut fun gap => separated gap phrases := by
  intro gap following isBlank ends
  induction phrases generalizing gap with
  | nil => trivial
  | cons phrase others ih =>
      have here := each phrase List.mem_cons_self
      cases others with
      | nil => exact here gap following isBlank ends
      | cons next others =>
          have later := ih (fun phrase member => each phrase (List.mem_cons_of_mem _ member)) blank
            blank_blank
          refine (here gap _ isBlank (Spaced.endsName_ofMark (by decide) _ _)).append ?_
          exact ⟨Spaced.cuts_mark .nil (by decide) _, later⟩

theorem Value.isCut_pieces (value : Value) : IsCut value.pieces := by
  induction value using Value.induction with
  | ofVariable name =>
      intro gap following isBlank ends
      exact ⟨Spaced.cuts_mark isBlank (by decide) _, name.cuts .nil ends, trivial⟩
  | ofString content =>
      intro gap following isBlank ends
      exact ⟨Spaced.cuts_literal isBlank content.noNull _, trivial⟩
  | ofArray entries ih =>
      intro gap following isBlank ends
      have entry : ∀ phrase ∈ entryPhrases entries, IsCut phrase := by
        rw [entryPhrases_eq]
        intro phrase member gap following isBlank ends
        obtain ⟨entry, inside, rfl⟩ := List.mem_map.mp member
        exact ⟨Spaced.cuts_literal isBlank entry.1.noNull _,
          Spaced.cuts_mark blank_blank (by decide) _, ih entry inside _ _ blank_blank ends⟩
      refine ⟨Spaced.cuts_mark isBlank (by decide) _, Spaced.AllCut.append ?_ ?_⟩
      · exact isCut_separated entry _ _ .nil (Spaced.endsName_ofMark (by decide) _ _)
      · exact ⟨Spaced.cuts_mark .nil (by decide) _, trivial⟩

theorem Target.isCut_pieces (target : Target) : IsCut target.pieces := by
  intro gap following isBlank ends
  have closed {spelling : String} (closed : spelling ∈ Spaced.closedMarks)
      (following : List Glyph) : (Spaced.ofMark [] spelling).Cuts following :=
    Spaced.cuts_mark .nil closed following
  cases target with
  | function name => exact ⟨name.cuts isBlank ends, trivial⟩
  | rooted name =>
      exact ⟨Spaced.cuts_mark isBlank (by decide) _, name.cuts .nil ends, trivial⟩
  | method object name =>
      exact ⟨Spaced.cuts_mark isBlank (by decide) _,
        object.cuts .nil (Spaced.endsName_ofMark (by decide) _ _),
        closed (by decide) _, name.cuts .nil ends, trivial⟩
  | nullsafe object name =>
      exact ⟨Spaced.cuts_mark isBlank (by decide) _,
        object.cuts .nil (Spaced.endsName_ofMark (by decide) _ _),
        closed (by decide) _, name.cuts .nil ends, trivial⟩
  | onStatic className factory name =>
      exact ⟨className.cuts isBlank (Spaced.endsName_ofMark (by decide) _ _), closed (by decide) _,
        factory.cuts .nil (Spaced.endsName_ofMark (by decide) _ _), closed (by decide) _,
        closed (by decide) _, closed (by decide) _, name.cuts .nil ends, trivial⟩

theorem allCut_argumentPieces (values : List Value) (following : List Glyph) :
    Spaced.AllCut (argumentPieces values) following := by
  refine ⟨Spaced.cuts_mark .nil (by decide) _, Spaced.AllCut.append ?_ ?_⟩
  · refine isCut_separated ?_ _ _ .nil (Spaced.endsName_ofMark (by decide) _ _)
    intro phrase member
    obtain ⟨value, -, rfl⟩ := List.mem_map.mp member
    exact value.isCut_pieces
  · exact ⟨Spaced.cuts_mark .nil (by decide) _, trivial⟩

/-- **The lexer cuts off every piece of a statement**, whatever follows the statement. -/
theorem Statement.allCut_pieces (statement : Statement) {gap : List Glyph}
    (isBlank : Spaced.Blank gap) (following : List Glyph) :
    Spaced.AllCut (statement.pieces gap) following := by
  refine Spaced.AllCut.append ?_ ((allCut_argumentPieces _ _).append
    ⟨Spaced.cuts_mark .nil (by decide) _, trivial⟩)
  exact statement.target.isCut_pieces gap _ isBlank (Spaced.endsName_ofMark (by decide) _ _)

end TimeoutAudit.Php.Script
