import TimeoutAudit.Proofs.Php.Lexer
import TimeoutAudit.Proofs.Php.Literal

/-!
# Cutting a source whose pieces are known

A source may be written down as pieces, each behind a gap of blanks.  The lexer finds these pieces
again if it cuts each of them off in one stride (`Spaced.Cuts`), and its tokens are then the
pieces, given their rows (`tokens_of_allCut`).  Whether a piece is cut off can depend on what
follows it: a name ends only in front of a glyph that does not go on with it (`cuts_name`), while a
bracket or a quoted string ends by itself (`cuts_mark`, `cuts_literal`).
-/

set_option autoImplicit false

namespace TimeoutAudit.Php

open Lexer

/-! ## Pieces behind gaps -/

/-- A piece of source and the gap in front of it. -/
structure Spaced where
  gap : List Glyph
  lexeme : Lexeme
  text : List Glyph

namespace Spaced

/-- The source of pieces behind their gaps. -/
def source (pieces : List Spaced) : List Glyph :=
  pieces.flatMap fun piece => piece.gap ++ piece.text

@[simp] theorem source_nil : source [] = [] := rfl

@[simp] theorem source_cons (piece : Spaced) (others : List Spaced) :
    source (piece :: others) = piece.gap ++ piece.text ++ source others := List.flatMap_cons

@[simp] theorem source_append (first second : List Spaced) :
    source (first ++ second) = source first ++ source second := List.flatMap_append

/-- The token of a piece whose gap starts in the given row. -/
def token (row : Nat) (piece : Spaced) : Token :=
  ⟨piece.lexeme, piece.gap, piece.text, row + Glyph.lineFeeds piece.gap⟩

/-- The tokens of pieces that start in the given row. -/
def lay (row : Nat) : List Spaced → List Token
  | [] => []
  | piece :: others =>
    piece.token row :: lay (row + Glyph.lineFeeds piece.gap + Glyph.lineFeeds piece.text) others

theorem lay_append (row : Nat) (first second : List Spaced) :
    lay row (first ++ second) =
      lay row first ++ lay (row + Glyph.lineFeeds (source first)) second := by
  induction first generalizing row with
  | nil => rfl
  | cons piece others ih =>
      simp only [List.cons_append, lay, ih, source_cons, lineFeeds_append, Nat.add_assoc]

@[simp] theorem length_lay (row : Nat) (pieces : List Spaced) :
    (lay row pieces).length = pieces.length := by
  induction pieces generalizing row with
  | nil => rfl
  | cons piece others ih => rw [lay, List.length_cons, ih, List.length_cons]

/-- Glyphs that may stand between pieces. -/
def Blank (glyphs : List Glyph) : Prop := ∀ glyph ∈ glyphs, isSpace glyph = true

theorem Blank.nil : Blank [] := by
  intro glyph member
  cases member

/-- In front of what follows, a piece is cut off in one stride. -/
structure Cuts (piece : Spaced) (following : List Glyph) : Prop where
  blank : Blank piece.gap
  noNull : ∀ glyph ∈ piece.text, glyph.is '\x00' = false
  stride : ∃ first rest, piece.text = first :: rest ∧ isSpace first = false ∧
    codeStride [] first (rest ++ following) = ⟨[(piece.lexeme, piece.text)], [], following⟩

/-- Pieces are cut off one after the other. -/
def AllCut : List Spaced → List Glyph → Prop
  | [], _ => True
  | piece :: others, following =>
    piece.Cuts (source others ++ following) ∧ AllCut others following

theorem AllCut.append {first second : List Spaced} {following : List Glyph}
    (before : AllCut first (source second ++ following)) (after : AllCut second following) :
    AllCut (first ++ second) following := by
  induction first with
  | nil => exact after
  | cons piece others ih =>
      have here := before.1
      rw [← List.append_assoc, ← source_append] at here
      exact ⟨here, ih before.2⟩

theorem AllCut.length_le {pieces : List Spaced} {following : List Glyph}
    (cut : AllCut pieces following) : pieces.length ≤ (source pieces).length := by
  induction pieces with
  | nil => exact Nat.zero_le _
  | cons piece others ih =>
      obtain ⟨first, rest, text, -⟩ := cut.1.stride
      have shorter := ih cut.2
      rw [source_cons, text]
      simp only [List.length_append, List.length_cons]
      omega

theorem not_null_of_isSpace {glyph : Glyph} (blank : isSpace glyph = true) :
    glyph.is '\x00' = false := by
  rw [Bool.eq_false_iff]
  intro null
  rw [Glyph.is_iff.mp null] at blank
  exact absurd blank (by decide)

theorem AllCut.noNull {pieces : List Spaced} {following : List Glyph}
    (cut : AllCut pieces following) : ∀ glyph ∈ source pieces, glyph.is '\x00' = false := by
  induction pieces with
  | nil =>
      intro glyph member
      cases member
  | cons piece others ih =>
      intro glyph member
      rw [source_cons, List.mem_append, List.mem_append] at member
      rcases member with (gap | text) | later
      · exact not_null_of_isSpace (cut.1.blank glyph gap)
      · exact cut.1.noNull glyph text
      · exact ih cut.2 glyph later

/-! ## The tokens of a source -/

theorem cut_eq {holds : Glyph → Bool} {inside rest : List Glyph}
    (all : ∀ glyph ∈ inside, holds glyph = true)
    (ends : ∀ glyph ∈ rest.head?, holds glyph = false) :
    cut holds (inside ++ rest) = (inside, rest) := by
  rw [cut, List.takeWhile_append_of_pos all, List.dropWhile_append_of_pos all]
  cases rest with
  | nil => simp
  | cons first rest => simp [ends first rfl]

theorem cut_all {holds : Glyph → Bool} {glyphs : List Glyph}
    (all : ∀ glyph ∈ glyphs, holds glyph = true) : cut holds glyphs = (glyphs, []) := by
  have whole : cut holds (glyphs ++ []) = (glyphs, []) := cut_eq all (by simp)
  rwa [List.append_nil] at whole

/-- **The lexer finds the pieces of a source**, whatever row it starts in. -/
theorem tokensFrom_of_allCut {pieces : List Spaced} {following : List Glyph}
    (cut : AllCut pieces following) (blank : Blank following)
    {fuel : Nat} (enough : pieces.length ≤ fuel) (row : Nat) :
    tokensFrom fuel [] row (source pieces ++ following) = lay row pieces := by
  induction pieces generalizing fuel row with
  | nil =>
      cases fuel with
      | zero => rfl
      | succ fuel =>
          simp [tokensFrom, inCode, cut_all blank, lay]
  | cons piece others ih =>
      obtain ⟨fuel, rfl⟩ : ∃ less, fuel = less + 1 := ⟨fuel - 1, by simp at enough; omega⟩
      obtain ⟨first, rest, text, visible, taken⟩ := cut.1.stride
      have gap : Lexer.cut isSpace (source (piece :: others) ++ following) =
          (piece.gap, first :: (rest ++ (source others ++ following))) := by
        rw [source_cons, text, List.append_assoc, List.append_assoc]
        refine cut_eq cut.1.blank ?_
        simpa using visible
      have strode : stride [] first (rest ++ (source others ++ following)) =
          ⟨[(piece.lexeme, piece.text)], [], source others ++ following⟩ := taken
      rw [tokensFrom]
      simp only [inCode, if_true, gap, strode]
      rw [ih cut.2 (Nat.le_of_succ_le_succ enough)]
      rfl

/-- The glyphs of an opening tag. -/
def openingGlyphs : List Glyph := Glyph.ofString "<?php"

/-- **The tokens of a source of known pieces** are its opening tag and the pieces. -/
theorem tokens_of_allCut {pieces : List Spaced} {following : List Glyph}
    (cut : AllCut pieces following) (blank : Blank following) :
    tokens (openingGlyphs ++ (source pieces ++ following)) =
      ⟨.tag, [], openingGlyphs, 0⟩ :: lay 0 pieces := by
  have noNull : ∀ glyph ∈ openingGlyphs ++ (source pieces ++ following),
      (!glyph.is '\x00') = true := by
    intro glyph member
    rw [Bool.not_eq_true']
    rw [List.mem_append, List.mem_append] at member
    rcases member with opening | inside | behind
    · revert glyph
      decide
    · exact cut.noNull glyph inside
    · exact not_null_of_isSpace (blank glyph behind)
  have enough : pieces.length ≤ (source pieces ++ following).length :=
    Nat.le_trans cut.length_le (by simp)
  have laid := tokensFrom_of_allCut cut blank enough 0
  rw [tokens, cut_all noNull]
  show sourceTokens (openingGlyphs ++ (source pieces ++ following)) = _
  generalize source pieces ++ following = rest at laid ⊢
  show _ :: tokensFrom rest.length [] 0 rest = _
  rw [laid]
  rfl

/-! ## Pieces of code -/

/-- Marks that are cut off whatever follows them. -/
def closedMarks : List String :=
  ["(", ")", "[", "]", ",", ";", "$", "=>", "->", "?->", "::", "\\"]

/-- The given mark behind a gap. -/
def ofMark (gap : List Glyph) (spelling : String) : Spaced :=
  ⟨gap, .symbol spelling, Glyph.ofString spelling⟩

theorem closedMarks_noNull :
    ∀ spelling ∈ closedMarks, ∀ glyph ∈ Glyph.ofString spelling, glyph.is '\x00' = false := by
  decide

theorem cuts_mark {gap : List Glyph} (blank : Blank gap)
    {spelling : String} (closed : spelling ∈ closedMarks) (following : List Glyph) :
    (ofMark gap spelling).Cuts following := by
  refine ⟨blank, closedMarks_noNull spelling closed, ?_⟩
  simp only [closedMarks, List.mem_cons, List.not_mem_nil, or_false] at closed
  rcases closed with rfl | rfl | rfl | rfl | rfl | rfl | rfl | rfl | rfl | rfl | rfl | rfl
  all_goals exact ⟨_, _, rfl, rfl, rfl⟩

/-- A text in single quotes behind a gap. -/
def ofLiteral (gap : List Glyph) (text : String) : Spaced :=
  ⟨gap, .quoted, Glyph.ofString (Literal.singleQuoted text)⟩

/-- A stride through code takes a whole quoted string, if it ends. -/
theorem codeStride_quote (frames : List Frame) (rest : List Glyph) :
    codeStride frames (.char '\'') rest =
      match quotedBody rest with
      | some (text, after) => ⟨[(.quoted, .char '\'' :: text)], frames, after⟩
      | none => ⟨[(.unknown, [.char '\''])], frames, rest⟩ :=
  rfl

theorem noNull_singleQuoted {text : String} (noNull : '\x00' ∉ text.toList) :
    '\x00' ∉ (Literal.singleQuoted text).toList := by
  rw [Literal.toList_singleQuoted]
  simp only [List.mem_cons, List.mem_append, List.not_mem_nil, or_false]
  rintro (quote | body | quote)
  · exact absurd quote (by decide)
  · rcases Literal.mem_escapeSingle body with backslash | own
    · exact absurd backslash (by decide)
    · exact noNull own
  · exact absurd quote (by decide)

theorem cuts_literal {gap : List Glyph} (blank : Blank gap)
    {text : String} (noNull : '\x00' ∉ text.toList) (following : List Glyph) :
    (ofLiteral gap text).Cuts following := by
  have spelled : (ofLiteral gap text).text =
      .char '\'' :: ((Literal.escapeSingle text.toList).map .char ++ [.char '\'']) := by
    rw [ofLiteral, Glyph.ofString, Literal.toList_singleQuoted]
    simp
  refine ⟨blank, ?_, _, _, spelled, rfl, ?_⟩
  · intro glyph member
    rw [Bool.eq_false_iff]
    intro null
    rw [Glyph.is_iff.mp null, ofLiteral, Glyph.ofString, List.mem_map] at member
    obtain ⟨c, inside, same⟩ := member
    cases same
    exact noNull_singleQuoted noNull inside
  · rw [codeStride_quote, List.append_assoc, List.singleton_append, quotedBody_escapeSingle,
      spelled]
    rfl

/-- What follows a name ends it: no further part of the name, and no quotation mark that would make
a string of it. -/
def EndsName (following : List Glyph) : Prop :=
  ∀ glyph ∈ following.head?, isNamePart glyph = false ∧ glyph.is '\'' = false ∧ glyph.is '"' = false

/-- A mark ends the name in front of it. -/
theorem endsName_ofMark {spelling : String} (closed : spelling ∈ closedMarks)
    (others : List Spaced) (following : List Glyph) :
    EndsName (source (ofMark [] spelling :: others) ++ following) := by
  simp only [closedMarks, List.mem_cons, List.not_mem_nil, or_false] at closed
  rcases closed with rfl | rfl | rfl | rfl | rfl | rfl | rfl | rfl | rfl | rfl | rfl | rfl
  all_goals
    intro glyph first
    cases first
    decide

/-- A name behind a gap. -/
def ofName (gap : List Glyph) (name : String) : Spaced :=
  ⟨gap, (wordOf (Glyph.ofString name)).1, Glyph.ofString name⟩

theorem not_is_of_isNamePart {glyph : Glyph} (part : isNamePart glyph = true) {c : Char}
    (other : isNamePart (.char c) = false) : glyph.is c = false := by
  rw [Bool.eq_false_iff]
  intro same
  rw [Glyph.is_iff.mp same, other] at part
  cases part

theorem isSpace_of_isNameStart {glyph : Glyph} (starts : isNameStart glyph = true) :
    isSpace glyph = false := by
  rw [Bool.eq_false_iff]
  intro blank
  cases glyph with
  | broken bytes => cases starts
  | char c =>
      have letter : c = '_' ∨ ('a' ≤ c ∧ c ≤ 'z') ∨ ('A' ≤ c ∧ c ≤ 'Z') := by
        simpa [isNameStart, blank, or_assoc] using starts
      simp only [isSpace, Bool.or_eq_true, Bool.and_eq_true, decide_eq_true_eq, beq_iff_eq,
        or_assoc] at blank
      -- Letters lie between the blanks of ASCII and those beyond it.
      rcases blank with ⟨-, low⟩ | rfl | rfl | rfl | rfl | rfl
      · rcases letter with rfl | ⟨lower, -⟩ | ⟨upper, -⟩
        · exact absurd low (by decide)
        · exact absurd (Char.le_trans lower low) (by decide)
        · exact absurd (Char.le_trans upper low) (by decide)
      all_goals exact absurd letter (by decide)

/-- A stride through code takes a whole name, unless a quotation mark follows its first letter. -/
theorem codeStride_name {first : Glyph} {rest : List Glyph} (starts : isNameStart first = true)
    (single : rest.head?.any (Glyph.is '\'') = false)
    (double : rest.head?.any (Glyph.is '"') = false) (frames : List Frame) :
    codeStride frames first rest =
      ⟨[wordOf (cut isNamePart (first :: rest)).1], frames,
        (cut isNamePart (first :: rest)).2⟩ := by
  have part : isNamePart first = true := by rw [isNamePart, starts, Bool.true_or]
  have question := not_is_of_isNamePart part (show isNamePart (.char '?') = false by decide)
  have slash := not_is_of_isNamePart part (show isNamePart (.char '/') = false by decide)
  have hash := not_is_of_isNamePart part (show isNamePart (.char '#') = false by decide)
  have quote := not_is_of_isNamePart part (show isNamePart (.char '\'') = false by decide)
  have doubleQuote := not_is_of_isNamePart part (show isNamePart (.char '"') = false by decide)
  have backtick := not_is_of_isNamePart part (show isNamePart (.char '\x60') = false by decide)
  have less := not_is_of_isNamePart part (show isNamePart (.char '<') = false by decide)
  simp only [codeStride, question, slash, hash, quote, doubleQuote, backtick, less, single, double,
    starts, Bool.false_and, Bool.and_false, Bool.or_false, Bool.false_eq_true, if_false, if_true]

theorem cuts_name {gap : List Glyph} (blank : Blank gap)
    {name : String} {first : Char} {others : List Char} (spelled : name.toList = first :: others)
    (starts : isNameStart (.char first) = true)
    (goesOn : ∀ c ∈ others, isNamePart (.char c) = true) {following : List Glyph}
    (ends : EndsName following) : (ofName gap name).Cuts following := by
  have glyphs : Glyph.ofString name = .char first :: others.map .char := by
    rw [Glyph.ofString, spelled, List.map_cons]
  have parts : ∀ glyph ∈ Glyph.ofString name, isNamePart glyph = true := by
    rw [glyphs]
    simpa [isNamePart, starts] using goesOn
  have noneNext : ∀ c : Char, isNamePart (.char c) = false →
      (∀ glyph ∈ following.head?, glyph.is c = false) →
      (others.map Glyph.char ++ following).head?.any (Glyph.is c) = false := by
    intro c other behind
    cases others with
    | nil =>
        rw [List.map_nil, List.nil_append]
        cases next : following.head? with
        | none => rfl
        | some glyph => exact behind glyph next
    | cons second others => exact not_is_of_isNamePart (goesOn second List.mem_cons_self) other
  have single := noneNext '\'' (by decide) fun glyph next => (ends glyph next).2.1
  have double := noneNext '"' (by decide) fun glyph next => (ends glyph next).2.2
  have whole : cut isNamePart (.char first :: (others.map .char ++ following)) =
      (Glyph.ofString name, following) := by
    have cutOff := cut_eq parts fun glyph next => (ends glyph next).1
    rwa [glyphs, List.cons_append, ← glyphs] at cutOff
  refine ⟨blank, fun glyph member => not_is_of_isNamePart (parts glyph member) (by decide),
    .char first, others.map .char, glyphs, isSpace_of_isNameStart starts, ?_⟩
  rw [codeStride_name starts single double, whole]
  rfl

end Spaced

end TimeoutAudit.Php
