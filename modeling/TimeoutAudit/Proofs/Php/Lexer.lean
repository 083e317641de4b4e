import TimeoutAudit.Php.Lexer

/-!
# Tokens are laid out on the source

A stride through the source loses nothing: the pieces that it takes, followed by what is left, are
what it was given (`Lexer.covers_stride`).  So the tokens of a source, each behind its gap, stand
one after the other from the start of the source on, and the row of every token is the number of
line feeds before it (`laid_tokens`, `Laid.row_eq`).
-/

set_option autoImplicit false

namespace TimeoutAudit

theorem Glyph.is_iff {expected : Char} {glyph : Glyph} :
    glyph.is expected = true ↔ glyph = .char expected := by
  cases glyph <;> simp [Glyph.is]

namespace Php

namespace Lexer

/-! ## Cuts -/

theorem cut_split (holds : Glyph → Bool) (glyphs : List Glyph) :
    (cut holds glyphs).1 ++ (cut holds glyphs).2 = glyphs :=
  List.takeWhile_append_dropWhile

theorem untilTag_split (glyphs : List Glyph) :
    (untilTag glyphs).1 ++ (untilTag glyphs).2 = glyphs := by
  induction glyphs with
  | nil => rfl
  | cons glyph rest ih =>
      unfold untilTag
      split
      · rfl
      · exact congrArg (glyph :: ·) ih

theorem openingTag_split (glyphs : List Glyph) :
    (openingTag glyphs).1 ++ (openingTag glyphs).2 = glyphs := by
  unfold openingTag
  dsimp only
  split
  · exact List.take_append_drop 5 glyphs
  · split
    · exact List.take_append_drop 3 glyphs
    · exact List.take_append_drop 2 glyphs

theorem passage_split (glyphs : List Glyph) :
    (passage glyphs).1 ++ (passage glyphs).2 = glyphs := by
  show glyphs.take 2 ++ (untilTag (glyphs.drop 2)).1 ++ (openingTag (untilTag (glyphs.drop 2)).2).1
    ++ (openingTag (untilTag (glyphs.drop 2)).2).2 = glyphs
  rw [List.append_assoc, openingTag_split, List.append_assoc, untilTag_split,
    List.take_append_drop]

theorem lineComment_split (glyphs : List Glyph) :
    (lineComment glyphs).1 ++ (lineComment glyphs).2 = glyphs := by
  induction glyphs with
  | nil => rfl
  | cons glyph rest ih =>
      unfold lineComment
      split
      · rfl
      · exact congrArg (glyph :: ·) ih

theorem blockComment_split {glyphs taken rest : List Glyph}
    (found : blockComment glyphs = some (taken, rest)) : taken ++ rest = glyphs := by
  induction glyphs generalizing taken with
  | nil => cases found
  | cons first others ih =>
      cases others with
      | nil => cases found
      | cons second others =>
          unfold blockComment at found
          split at found
          · cases found
            rfl
          · split at found
            · cases found
            · next before after inner =>
                cases found
                exact congrArg (first :: ·) (ih inner)

theorem digits_split (isPart : Glyph → Bool) (glyphs : List Glyph) :
    (digits isPart glyphs).1 ++ (digits isPart glyphs).2 = glyphs := by
  induction glyphs with
  | nil => rfl
  | cons glyph rest ih =>
      unfold digits
      split
      · exact congrArg (glyph :: ·) ih
      · rfl

theorem exponent_split (glyphs : List Glyph) :
    (exponent glyphs).1 ++ (exponent glyphs).2 = glyphs := by
  cases glyphs with
  | nil => rfl
  | cons letter rest =>
      unfold exponent
      dsimp only
      generalize chosen : (if rest.head?.any (isOneOf ['+', '-']) then rest.take 1 else []) = sign
      have signed : sign ++ rest.drop sign.length = rest := by
        rw [← List.prefix_iff_eq_append, ← chosen]
        split
        · exact List.take_prefix 1 rest
        · exact List.nil_prefix
      split
      · rw [List.cons_append, List.cons_append, List.append_assoc, digits_split, signed]
      · rfl

theorem fraction_split (glyphs : List Glyph) :
    (fraction glyphs).1 ++ (fraction glyphs).2 = glyphs := by
  cases glyphs with
  | nil => rfl
  | cons point rest =>
      unfold fraction
      dsimp only
      split
      · exact congrArg (point :: ·) (digits_split isDigit rest)
      · rfl

theorem integer_split (glyphs : List Glyph) :
    (integer glyphs).1 ++ (integer glyphs).2 = glyphs := by
  have behind (count : Nat) (isPart : Glyph → Bool) :
      glyphs.take count ++ (digits isPart (glyphs.drop count)).1 ++
        (digits isPart (glyphs.drop count)).2 = glyphs := by
    rw [List.append_assoc, digits_split, List.take_append_drop]
  unfold integer
  dsimp only
  split
  · exact digits_split isDigit glyphs
  · split
    · exact behind 2 _
    · split
      · exact behind 2 _
      · split
        · exact behind 2 _
        · exact behind 1 _

theorem number_split (glyphs : List Glyph) :
    (number glyphs).1.2 ++ (number glyphs).2 = glyphs := by
  unfold number
  dsimp only
  split
  · exact integer_split glyphs
  · rw [List.append_assoc, List.append_assoc, exponent_split, fraction_split, digits_split]

theorem quotedBody_split {glyphs taken rest : List Glyph}
    (found : quotedBody glyphs = some (taken, rest)) : taken ++ rest = glyphs := by
  fun_induction quotedBody glyphs generalizing taken with
  | case1 => cases found
  | case2 glyph others closes =>
      cases found
      rfl
  | case3 glyph notClosing escapes => cases found
  | case4 glyph notClosing escapes escaped after none ih => cases found
  | case5 glyph notClosing escapes escaped after body beyond inner ih =>
      cases found
      exact congrArg (glyph :: escaped :: ·) (ih inner)
  | case6 glyph others notClosing plain none ih => cases found
  | case7 glyph others notClosing plain body beyond inner ih =>
      cases found
      exact congrArg (glyph :: ·) (ih inner)

theorem closingLabel?_split {label glyphs indent rest : List Glyph}
    (found : closingLabel? label glyphs = some (indent, rest)) :
    indent ++ label ++ rest = glyphs := by
  unfold closingLabel? at found
  dsimp only at found
  split at found
  · next ends =>
      rw [Bool.and_eq_true, List.isPrefixOf_iff_prefix, List.prefix_iff_eq_append] at ends
      cases found
      rw [List.append_assoc, ends.1, cut_split]
  · cases found

theorem nowdocBody_split {label : List Glyph} {lineStart : Bool} {glyphs taken rest : List Glyph}
    (found : nowdocBody label lineStart glyphs = some (taken, rest)) : taken ++ rest = glyphs := by
  fun_induction nowdocBody label lineStart glyphs generalizing taken with
  | case1 => cases found
  | case2 lineStart glyph others indent after closes =>
      cases found
      split at closes
      · exact closingLabel?_split closes
      · cases closes
  | case3 lineStart glyph others goesOn none ih => cases found
  | case4 lineStart glyph others goesOn body beyond inner ih =>
      cases found
      exact congrArg (glyph :: ·) (ih inner)

theorem head?_filter_isPrefix (holds : Glyph → Bool) (glyphs : List Glyph) :
    (glyphs.head?.filter holds).toList <+: glyphs := by
  cases glyphs with
  | nil => exact List.nil_prefix
  | cons first rest =>
      rw [List.head?_cons, Option.filter_some]
      split
      · exact ⟨rest, rfl⟩
      · exact List.nil_prefix

theorem opening?_split {glyphs : List Glyph} {found : Opening}
    (opens : opening? glyphs = some found) : found.text ++ found.rest = glyphs := by
  unfold opening? at opens
  dsimp only at opens
  have blank := cut_split (fun glyph => glyph.is ' ' || glyph.is '\t') (glyphs.drop 3)
  generalize cut (fun glyph => glyph.is ' ' || glyph.is '\t') (glyphs.drop 3) = spaced at *
  have quoted := List.prefix_iff_eq_append.mp
    (head?_filter_isPrefix (fun glyph => glyph.is '\'' || glyph.is '"') spaced.2)
  generalize (spaced.2.head?.filter fun glyph => glyph.is '\'' || glyph.is '"').toList = quote at *
  have labelled := cut_split isNamePart (spaced.2.drop quote.length)
  generalize cut isNamePart (spaced.2.drop quote.length) = named at *
  split at opens
  · next accepted =>
      have closes : named.2.take quote.length = quote := by
        simp only [Bool.and_eq_true, beq_iff_eq] at accepted
        exact accepted.1.2
      cases opens
      calc
        glyphs.take 3 ++ spaced.1 ++ quote ++ named.1 ++ quote ++ named.2.drop quote.length
          = glyphs.take 3 ++ (spaced.1 ++ (quote ++ (named.1 ++
              (named.2.take quote.length ++ named.2.drop quote.length)))) := by
            rw [closes]
            simp only [List.append_assoc]
        _ = glyphs := by
            rw [List.take_append_drop, labelled, quoted, blank, List.take_append_drop]
  · cases opens

theorem content_split (closing : Option Char) (glyphs : List Glyph) :
    (content closing glyphs).1 ++ (content closing glyphs).2 = glyphs := by
  fun_induction content closing glyphs with
  | case1 => rfl
  | case2 glyph rest stops => rfl
  | case3 glyph rest goesOn feeds => rfl
  | case4 glyph noFeed escapes goesOn => rfl
  | case5 glyph noFeed escapes escaped after feeds goesOn => rfl
  | case6 glyph noFeed escapes escaped after noEscapedFeed body beyond inner goesOn ih =>
      rw [inner] at ih
      exact congrArg (glyph :: escaped :: ·) ih
  | case7 glyph rest goesOn noFeed plain body beyond inner ih =>
      rw [inner] at ih
      exact congrArg (glyph :: ·) ih

/-! ## Pieces -/

/-- The source of pieces, one after the other. -/
def sourceOf (pieces : List Piece) : List Glyph := pieces.flatMap Prod.snd

@[simp] theorem sourceOf_nil : sourceOf [] = [] := rfl

@[simp] theorem sourceOf_cons (piece : Piece) (others : List Piece) :
    sourceOf (piece :: others) = piece.2 ++ sourceOf others := List.flatMap_cons

@[simp] theorem sourceOf_append (first second : List Piece) :
    sourceOf (first ++ second) = sourceOf first ++ sourceOf second := List.flatMap_append

theorem sourceOf_dollar_wordOf (name : List Glyph) (others : List Piece) :
    sourceOf (mark "$" :: wordOf name :: others) = .char '$' :: (name ++ sourceOf others) := rfl

theorem subscript?_split {glyphs rest : List Glyph} {pieces : List Piece}
    (found : subscript? glyphs = some (pieces, rest)) : sourceOf pieces ++ rest = glyphs := by
  unfold subscript? at found
  dsimp only at found
  split at found
  · next inner closing after indexed =>
      split at found
      · next closes =>
          cases found
          obtain rfl := Glyph.is_iff.mp closes
          suffices same : sourceOf inner ++ .char ']' :: rest = glyphs by
            rw [sourceOf_append, List.append_assoc]
            exact same
          generalize Glyph.char ']' :: rest = tail at indexed ⊢
          cases glyphs with
          | nil => cases indexed
          | cons first others =>
              dsimp only at indexed
              split at indexed
              · cases indexed
                rw [sourceOf_cons, sourceOf_nil, List.append_nil]
                exact cut_split isNamePart (first :: others)
              split at indexed
              · cases indexed
                simpa using cut_split isDigit (first :: others)
              split at indexed
              · next negative =>
                  rw [Bool.and_eq_true, Glyph.is_iff] at negative
                  obtain ⟨rfl, -⟩ := negative
                  cases indexed
                  rw [sourceOf_cons, sourceOf_cons, sourceOf_nil, List.append_nil]
                  exact congrArg (Glyph.char '-' :: ·) (cut_split isDigit others)
              split at indexed
              · next dollar =>
                  rw [Bool.and_eq_true, Glyph.is_iff] at dollar
                  obtain ⟨rfl, -⟩ := dollar
                  cases indexed
                  rw [sourceOf_dollar_wordOf, sourceOf_nil, List.append_nil]
                  exact congrArg (Glyph.char '$' :: ·) (cut_split isNamePart others)
              · cases indexed
      · cases found
  · cases found

theorem interpolated_split (rest : List Glyph) :
    sourceOf (interpolated (.char '$' :: rest)).1 ++ (interpolated (.char '$' :: rest)).2 =
      .char '$' :: rest := by
  unfold interpolated
  simp only [List.drop_succ_cons, List.drop_zero]
  have named := cut_split isNamePart rest
  generalize cut isNamePart rest = parts at named ⊢
  obtain ⟨name, after⟩ := parts
  dsimp only at named ⊢
  subst named
  have headed {pieces : List Piece} {beyond : List Glyph}
      (split : sourceOf pieces ++ beyond = after) :
      sourceOf ([mark "$", wordOf name] ++ pieces) ++ beyond = .char '$' :: (name ++ after) := by
    rw [sourceOf_append, List.append_assoc, split, sourceOf_dollar_wordOf, sourceOf_nil,
      List.append_nil, List.cons_append]
  split
  · next first second others =>
      split
      · next bracket =>
          obtain rfl := Glyph.is_iff.mp bracket
          split
          · next pieces beyond found =>
              exact headed (congrArg (Glyph.char '[' :: ·) (subscript?_split found))
          · exact headed rfl
      · split
        · next arrow =>
            simp only [Bool.and_eq_true, Glyph.is_iff] at arrow
            obtain ⟨⟨rfl, rfl⟩, -⟩ := arrow
            refine headed ?_
            rw [sourceOf_cons, sourceOf_cons, sourceOf_nil, List.append_nil]
            exact congrArg (Glyph.char '-' :: Glyph.char '>' :: ·) (cut_split isNamePart others)
        · exact headed rfl
  · exact headed rfl

theorem interpolated_ne_nil (glyphs : List Glyph) : (interpolated glyphs).1 ≠ [] := by
  unfold interpolated
  dsimp only
  repeat' split
  all_goals simp

/-! ## Strides -/

/-- A stride takes at least one piece off the front of its glyphs, and loses nothing. -/
structure Covers (taken : Stride) (glyphs : List Glyph) : Prop where
  progress : taken.pieces ≠ []
  split : sourceOf taken.pieces ++ taken.rest = glyphs

/-- A stride that takes one piece. -/
theorem covers_single {lexeme : Lexeme} {text rest glyphs : List Glyph} {frames : List Frame}
    (split : text ++ rest = glyphs) : Covers ⟨[(lexeme, text)], frames, rest⟩ glyphs where
  progress := by simp
  split := by simpa using split

theorem covers_ite {condition : Prop} [Decidable condition] {first second : Stride}
    {glyphs : List Glyph} (yes : Covers first glyphs) (no : Covers second glyphs) :
    Covers (if condition then first else second) glyphs := by
  split
  · exact yes
  · exact no

theorem covers_codeStride (frames : List Frame) (first : Glyph) (rest : List Glyph) :
    Covers (codeStride frames first rest) (first :: rest) := by
  have unknown : Covers ⟨[(.unknown, [first])], frames, rest⟩ (first :: rest) := covers_single rfl
  unfold codeStride
  dsimp only
  -- One case for each kind of token, in the order in which they are tried.
  refine covers_ite (covers_single (passage_split (first :: rest))) ?_
  refine covers_ite (covers_single (lineComment_split (first :: rest))) ?_
  refine covers_ite ?_ ?_
  · split
    · next text after found =>
        refine covers_single ?_
        rw [List.append_assoc, blockComment_split found]
        exact List.take_append_drop 2 (first :: rest)
    · exact unknown
  refine covers_ite ?_ ?_
  · split
    · next text after found =>
        refine covers_single ?_
        rw [List.append_assoc, quotedBody_split found, List.take_append_drop]
    · exact unknown
  refine covers_ite (covers_single (List.take_append_drop _ _)) ?_
  refine covers_ite (covers_single rfl) ?_
  refine covers_ite ?_ ?_
  · split
    · next opened found =>
        refine covers_ite ?_ (covers_single (opening?_split found))
        split
        · next text after closes =>
            refine covers_single ?_
            rw [List.append_assoc, nowdocBody_split closes, opening?_split found]
        · exact unknown
    · exact unknown
  refine covers_ite (covers_single (cut_split isNamePart (first :: rest))) ?_
  refine covers_ite (covers_single (number_split (first :: rest))) ?_
  split
  · next spelling text found =>
      have starts := List.find?_some found
      rw [List.isPrefixOf_iff_prefix, List.prefix_iff_eq_append] at starts
      exact covers_single starts
  · exact unknown

theorem covers_textStride (closing : Option Char) (frame outer : List Frame)
    (glyphs : List Glyph) : Covers (textStride closing frame outer glyphs) glyphs := by
  unfold textStride
  split
  · next first second rest =>
      split
      · next brace =>
          simp only [Bool.and_eq_true, Glyph.is_iff] at brace
          obtain ⟨rfl, rfl⟩ := brace
          exact covers_single rfl
      split
      · next brace =>
          simp only [Bool.and_eq_true, Glyph.is_iff] at brace
          obtain ⟨rfl, rfl⟩ := brace
          exact ⟨by simp, rfl⟩
      split
      · next name =>
          simp only [Bool.and_eq_true, Glyph.is_iff] at name
          obtain ⟨rfl, -⟩ := name
          exact ⟨interpolated_ne_nil _, interpolated_split (second :: rest)⟩
      · exact covers_single (content_split closing (first :: second :: rest))
  · exact covers_single (content_split closing glyphs)

/-- **A stride loses nothing.** -/
theorem covers_stride (frames : List Frame) (first : Glyph) (rest : List Glyph) :
    Covers (stride frames first rest) (first :: rest) := by
  unfold stride
  split
  · next closing outer =>
      split
      · exact covers_single rfl
      · exact covers_textStride _ _ _ _
  · next label lineStart outer =>
      split
      · next indent after closes =>
          split at closes
          · have whole := closingLabel?_split closes
            refine ⟨by simp, ?_⟩
            dsimp only
            split
            · next none => simpa [List.isEmpty_iff.mp none] using whole
            · simpa using whole
          · cases closes
      · have covers := covers_textStride none [.labelled label false] outer (first :: rest)
        dsimp only
        split
        · exact ⟨covers.progress, covers.split⟩
        · exact covers
  · exact covers_codeStride _ first rest

/-! ## Placed tokens -/

end Lexer

/-- Tokens are laid out on glyphs that start in the given row: each stands behind its gap, and its
row is that of its first glyph. -/
inductive Laid : Nat → List Glyph → List Token → Prop where
  | nil (row : Nat) (glyphs : List Glyph) : Laid row glyphs []
  | cons (row : Nat) (lexeme : Lexeme) (gap text rest : List Glyph) (others : List Token)
      (laid : Laid (row + Glyph.lineFeeds gap + Glyph.lineFeeds text) rest others) :
      Laid row (gap ++ text ++ rest) (⟨lexeme, gap, text, row + Glyph.lineFeeds gap⟩ :: others)

theorem lineFeeds_append (first second : List Glyph) :
    Glyph.lineFeeds (first ++ second) = Glyph.lineFeeds first + Glyph.lineFeeds second :=
  List.countP_append

namespace Laid

variable {row : Nat} {glyphs : List Glyph} {tokens : List Token}

/-- The source of the tokens stands at the front. -/
theorem isPrefix (laid : Laid row glyphs tokens) : tokens.flatMap Token.source <+: glyphs := by
  induction laid with
  | nil row glyphs => exact List.nil_prefix
  | cons row lexeme gap text rest others laid ih =>
      rw [List.flatMap_cons]
      exact (List.prefix_append_right_inj _).mpr ih

/-- Tokens that are laid out behind others come after them. -/
theorem append (laid : Laid row glyphs tokens) {rest : List Glyph} {others : List Token}
    (behind : Laid (row + Glyph.lineFeeds (tokens.flatMap Token.source)) rest others) :
    Laid row (tokens.flatMap Token.source ++ rest) (tokens ++ others) := by
  induction laid with
  | nil row glyphs => exact behind
  | cons row lexeme gap text glyphs later laid ih =>
      rw [List.flatMap_cons, Token.source, lineFeeds_append, lineFeeds_append, ← Nat.add_assoc,
        ← Nat.add_assoc] at behind
      rw [List.flatMap_cons, List.append_assoc]
      exact .cons row lexeme gap text _ _ (ih behind)

/-- **The row of a token** counts the line feeds before it. -/
theorem row_eq {front back : List Token} {token : Token}
    (laid : Laid row glyphs (front ++ token :: back)) :
    token.row = row + Glyph.lineFeeds (front.flatMap Token.source ++ token.gap) := by
  induction front generalizing row glyphs with
  | nil =>
      cases laid
      rfl
  | cons first others ih =>
      cases laid with
      | cons _ lexeme gap text rest _ laid =>
          rw [ih laid, List.flatMap_cons]
          simp only [Token.source, lineFeeds_append]
          omega

end Laid

namespace Lexer

/-- Pieces that follow each other are laid out, and what is laid out behind them comes next. -/
theorem laid_place_nil {rest : List Glyph} {others : List Token} (row : Nat) (pieces : List Piece)
    (laid : Laid (row + piecesLineFeeds pieces) rest others) :
    Laid row (sourceOf pieces ++ rest) (place row [] pieces ++ others) := by
  induction pieces generalizing row with
  | nil => exact laid
  | cons piece later ih =>
      obtain ⟨lexeme, text⟩ := piece
      have rows : row + piecesLineFeeds ((lexeme, text) :: later) =
          row + Glyph.lineFeeds text + piecesLineFeeds later := (Nat.add_assoc _ _ _).symm
      rw [rows] at laid
      rw [sourceOf_cons, List.append_assoc]
      exact .cons row lexeme [] text _ _ (ih _ laid)

/-- The same with a gap before the first piece. -/
theorem laid_place {row : Nat} {gap rest : List Glyph} {pieces : List Piece} {others : List Token}
    (progress : pieces ≠ [])
    (laid : Laid (row + Glyph.lineFeeds gap + piecesLineFeeds pieces) rest others) :
    Laid row (gap ++ (sourceOf pieces ++ rest)) (place row gap pieces ++ others) := by
  cases pieces with
  | nil => exact absurd rfl progress
  | cons piece later =>
      obtain ⟨lexeme, text⟩ := piece
      have rows : row + Glyph.lineFeeds gap + piecesLineFeeds ((lexeme, text) :: later) =
          row + Glyph.lineFeeds gap + Glyph.lineFeeds text + piecesLineFeeds later :=
        (Nat.add_assoc _ _ _).symm
      rw [rows] at laid
      rw [sourceOf_cons, List.append_assoc, ← List.append_assoc]
      exact .cons row lexeme gap text _ _ (laid_place_nil _ later laid)

/-- **Tokens are laid out**, however many strides are taken. -/
theorem laid_tokensFrom (fuel : Nat) (frames : List Frame) (row : Nat) (glyphs : List Glyph) :
    Laid row glyphs (tokensFrom fuel frames row glyphs) := by
  induction fuel generalizing frames row glyphs with
  | zero => exact .nil row glyphs
  | succ fuel ih =>
      unfold tokensFrom
      have spaced : ∀ gap body, (if inCode frames then cut isSpace glyphs else ([], glyphs)) =
          (gap, body) → gap ++ body = glyphs := by
        intro gap body same
        split at same
        · rw [← cut_split isSpace glyphs, same]
        · cases same
          rfl
      split
      next gap body same =>
      rw [← spaced gap body same]
      cases body with
      | nil => exact .nil row _
      | cons first rest =>
          have covers := covers_stride frames first rest
          have laid := laid_place covers.progress
            (ih (stride frames first rest).frames
              (row + Glyph.lineFeeds gap + piecesLineFeeds (stride frames first rest).pieces)
              (stride frames first rest).rest)
          rwa [covers.split] at laid

theorem laid_sourceTokens (glyphs : List Glyph) : Laid 0 glyphs (sourceTokens glyphs) := by
  unfold sourceTokens
  have split := untilTag_split glyphs
  generalize untilTag glyphs = parts at split ⊢
  obtain ⟨before, after⟩ := parts
  dsimp only at split ⊢
  generalize chosen : (if before.isEmpty then [] else [(Lexeme.text, before)]) = lead
  have leading : sourceOf lead = before := by
    rw [← chosen]
    cases before <;> simp
  have tagged := openingTag_split after
  rw [← split, ← leading]
  split
  · simpa using laid_place_nil 0 lead (.nil _ [])
  · have laid := laid_place_nil 0 (lead ++ [(.tag, (openingTag after).1)])
      (laid_tokensFrom (openingTag after).2.length [] _ (openingTag after).2)
    simp only [sourceOf_append, sourceOf_cons, sourceOf_nil, List.append_nil, List.append_assoc,
      tagged, Nat.zero_add] at laid
    exact laid

end Lexer

/-- **The tokens of a source are laid out on it from the start.** -/
theorem laid_tokens (source : List Glyph) : Laid 0 source (tokens source) := by
  unfold tokens
  have split := Lexer.cut_split (fun glyph => !glyph.is '\x00') source
  generalize Lexer.cut (fun glyph => !glyph.is '\x00') source = parts at split ⊢
  obtain ⟨readable, unread⟩ := parts
  dsimp only at split ⊢
  rw [← split]
  have laid := Lexer.laid_sourceTokens readable
  split
  · rwa [List.append_nil]
  · next null rest =>
      -- Blanks may be left between the last token and the null; they are its gap.
      have whole := List.prefix_iff_eq_append.mp laid.isPrefix
      generalize Lexer.sourceTokens readable = found at laid whole ⊢
      generalize readable.drop (found.flatMap Token.source).length = gap at whole ⊢
      have rows : Glyph.lineFeeds readable =
          0 + Glyph.lineFeeds (found.flatMap Token.source) + Glyph.lineFeeds gap := by
        rw [← whole, lineFeeds_append, Nat.zero_add]
      have behind := laid.append (.cons _ .unknown gap [null] rest [] (.nil _ _))
      rw [rows, ← whole]
      simpa using behind

end Php

end TimeoutAudit
