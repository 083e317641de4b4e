import TimeoutAudit.Proofs.Php.ScriptCalls

/-!
# Call sites read back from source

The tokens of a script are its opening tag and the pieces of its statements (`Script.tokens_text`).
They are read statement by statement (`Script.reads_statements`): behind the statements read so far,
the next one starts in the row that their text reaches, and its tree holds its call.  So parsing
the text of a script gives the calls that were written (`callSites_script`).
-/

set_option autoImplicit false

namespace TimeoutAudit.Php

/-- The tree of tokens that a program is read from. -/
theorem treeOfTokens_eq {input : List Token} {root : Node}
    (reads : Reads (Grammar.program (Grammar.rulesWithin (nestingBound input.length))) input [root]
      []) :
    treeOfTokens input = root := by
  obtain ⟨split, read⟩ := reads.located
  rw [treeOfTokens, read]
  rfl

namespace Script

open Reader Grammar Spaced

/-! ## The pieces of a script -/

/-- Blanks around a statement, as glyphs. -/
def margins (margin : Nat) : List Glyph := Glyph.ofString (indent margin)

/-- What stands between the end of a statement and the margin of the next one. -/
def lineEnd (margin : Nat) : List Glyph := margins margin ++ [.char '\n']

/-- The pieces of statements on lines of their own, behind the given blanks. -/
def scriptPieces (margin : Nat) (lead : List Glyph) : List Statement → List Spaced
  | [] => []
  | statement :: others =>
    statement.pieces (lead ++ margins margin) ++ scriptPieces margin (lineEnd margin) others

/-- The blanks behind the last statement. -/
def trailing (margin : Nat) (lead : List Glyph) : List Statement → List Glyph
  | [] => lead
  | _ :: others => trailing margin (lineEnd margin) others

theorem blank_margins (margin : Nat) : Blank (margins margin) := by
  intro glyph member
  have chars : ∀ c ∈ (indent margin).toList, c = ' ' := by
    intro c inside
    rw [indent, String.toList_ofList] at inside
    exact List.eq_of_mem_replicate inside
  obtain ⟨c, inside, rfl⟩ := List.mem_map.mp member
  rw [chars c inside]
  rfl

theorem blank_append {first second : List Glyph} (isBlank : Blank first) (others : Blank second) :
    Blank (first ++ second) := by
  intro glyph member
  rcases List.mem_append.mp member with here | there
  · exact isBlank glyph here
  · exact others glyph there

theorem blank_lineEnd (margin : Nat) : Blank (lineEnd margin) := by
  refine blank_append (blank_margins margin) ?_
  intro glyph member
  obtain rfl := List.mem_singleton.mp member
  rfl

theorem blank_trailing {margin : Nat} {lead : List Glyph} (isBlank : Blank lead)
    (statements : List Statement) : Blank (trailing margin lead statements) := by
  induction statements generalizing lead with
  | nil => exact isBlank
  | cons statement others ih => exact ih (blank_lineEnd margin)

theorem ofString_line (margin : Nat) (statement : Statement) :
    Glyph.ofString (line margin statement) =
      margins margin ++ Glyph.ofString statement.text ++ lineEnd margin := by
  rw [line, ofString_append, ofString_append, ofString_append, lineEnd, margins]
  simp only [List.append_assoc]
  rfl

theorem source_scriptPieces (margin : Nat) (lead : List Glyph) (statements : List Statement) :
    source (scriptPieces margin lead statements) ++ trailing margin lead statements =
      lead ++ Glyph.ofString (String.join (statements.map (line margin))) := by
  induction statements generalizing lead with
  | nil => simp [scriptPieces, trailing, Glyph.ofString]
  | cons statement others ih =>
      rw [scriptPieces, trailing, source_append, List.append_assoc, ih, statement.source_pieces,
        List.map_cons, String.join_cons, ofString_append, ofString_line]
      simp only [List.append_assoc]

theorem allCut_scriptPieces {margin : Nat} {lead : List Glyph} (isBlank : Blank lead)
    (statements : List Statement) (following : List Glyph) :
    AllCut (scriptPieces margin lead statements) following := by
  induction statements generalizing lead with
  | nil => trivial
  | cons statement others ih =>
      refine AllCut.append ?_ (ih (blank_lineEnd margin))
      exact statement.allCut_pieces (blank_append isBlank (blank_margins margin)) _

/-- **The tokens of a script** are its opening tag and its pieces. -/
theorem tokens_text (margin : Nat) (statements : List Statement) :
    tokens (Glyph.ofString (text margin statements)) =
      ⟨.tag, [], openingGlyphs, 0⟩ :: lay 0 (scriptPieces margin [.char '\n'] statements) := by
  have lead : Blank [.char '\n'] := by
    intro glyph member
    obtain rfl := List.mem_singleton.mp member
    rfl
  rw [← tokens_of_allCut (allCut_scriptPieces lead statements _) (blank_trailing lead statements),
    source_scriptPieces, text, ofString_append]
  rfl

/-! ## Lines -/

/-- The number of line breaks in a text. -/
def lineBreaks (text : String) : Nat := text.toList.count '\n'

theorem lineFeeds_ofString (text : String) :
    Glyph.lineFeeds (Glyph.ofString text) = lineBreaks text := by
  rw [Glyph.lineFeeds, Glyph.ofString, List.countP_map, lineBreaks, List.count]
  rfl

/-- The line of the statement that comes behind the given ones. -/
def lineAfter (margin : Nat) (statements : List Statement) : Nat :=
  1 + lineBreaks (text margin statements ++ indent margin)

theorem lineBreaks_append (first second : String) :
    lineBreaks (first ++ second) = lineBreaks first + lineBreaks second := by
  rw [lineBreaks, String.toList_append, List.count_append]
  rfl

theorem text_concat (margin : Nat) (statements : List Statement) (statement : Statement) :
    text margin (statements ++ [statement]) = text margin statements ++ line margin statement := by
  rw [text, text, List.map_append, String.join_append, List.map_singleton, String.join_cons,
    String.join_nil, String.append_empty, String.append_assoc]

/-! ## The statements of a script -/

theorem Statement.length_le_pieces {statement : Statement} {value : Value}
    (passed : value ∈ statement.arguments) (gap : List Glyph) :
    (value.pieces []).length ≤ (statement.pieces gap).length := by
  obtain ⟨inFront, shorter⟩ := exists_length_le_separated
    (List.mem_map_of_mem passed : value.pieces ∈ statement.arguments.map Value.pieces) []
  rw [value.length_pieces inFront []] at shorter
  rw [pieces, argumentPieces]
  simp only [List.length_append, List.length_cons]
  omega

theorem length_le_scriptPieces {margin : Nat} {statements : List Statement} {statement : Statement}
    (member : statement ∈ statements) {value : Value} (passed : value ∈ statement.arguments)
    (lead : List Glyph) :
    (value.pieces []).length ≤ (scriptPieces margin lead statements).length := by
  induction statements generalizing lead with
  | nil => cases member
  | cons first others ih =>
      rw [scriptPieces, List.length_append]
      rcases List.mem_cons.mp member with rfl | later
      · have shorter := Statement.length_le_pieces passed (lead ++ margins margin)
        omega
      · have shorter := ih later (lineEnd margin)
        omega

theorem Statement.exists_first (statement : Statement) (row : Nat) (gap : List Glyph) :
    ∃ first others, lay row (statement.pieces gap) = first :: others ∧ first.isExtra = false := by
  obtain ⟨first, later, starts, plain, -⟩ := statement.target.exists_first row gap
  rw [Statement.pieces, lay_append, starts]
  exact ⟨first, _, rfl, plain⟩

/-- The row in which a statement ends. -/
def endRow (margin row : Nat) (lead : List Glyph) (statement : Statement) : Nat :=
  row + Glyph.lineFeeds (source (statement.pieces (lead ++ margins margin)))

theorem lay_scriptPieces_cons (margin row : Nat) (lead : List Glyph) (statement : Statement)
    (others : List Statement) :
    lay row (scriptPieces margin lead (statement :: others)) =
      lay row (statement.pieces (lead ++ margins margin)) ++
        lay (endRow margin row lead statement) (scriptPieces margin (lineEnd margin) others) := by
  rw [scriptPieces, lay_append]
  rfl

section Reached

variable {margin row : Nat} {lead : List Glyph} {before : List Statement}
  (reached : row + Glyph.lineFeeds lead = lineBreaks (text margin before))

include reached

theorem row_eq_lineAfter :
    row + Glyph.lineFeeds (lead ++ margins margin) + 1 = lineAfter margin before := by
  rw [lineAfter, lineBreaks_append, ← reached, ← lineFeeds_ofString (indent margin),
    lineFeeds_append, margins]
  omega

theorem endRow_eq_lineBreaks (statement : Statement) :
    endRow margin row lead statement + Glyph.lineFeeds (lineEnd margin) =
      lineBreaks (text margin (before ++ [statement])) := by
  rw [text_concat, lineBreaks_append, ← reached, ← lineFeeds_ofString (line margin statement),
    ofString_line, endRow, statement.source_pieces]
  simp only [lineFeeds_append]
  omega

/-- The statements of a script are read one after the other, each as its call. -/
theorem reads_statements {depth : Nat} {statements : List Statement}
    (deep : ∀ statement ∈ statements, ∀ value ∈ statement.arguments,
      (value.pieces []).length ≤ depth)
    {steps : List Token}
    (enough : (lay row (scriptPieces margin lead statements)).length ≤ steps.length) :
    ∃ nodes, Reads (itemsWithin atEnd (rulesWithin (depth + 2) .statement) steps)
        (lay row (scriptPieces margin lead statements)) nodes [] ∧
      (∀ node ∈ nodes, node.hasFault = false) ∧
      nodes.flatMap callsInPreOrder = statements.mapIdx fun index statement =>
        statement.call (lineAfter margin (before ++ statements.take index)) := by
  -- `before` grows by the statement that is read, so `reached` carries the lines along.
  induction statements generalizing before row lead steps with
  | nil =>
      refine ⟨[], Reads.items_stop rfl, ?_, rfl⟩
      intro node member
      cases member
  | cons statement others ih =>
      obtain ⟨first, later, starts, plain⟩ :=
        statement.exists_first row (lead ++ margins margin)
      have split := lay_scriptPieces_cons margin row lead statement others
      have goesOn : atEnd (lay row (scriptPieces margin lead (statement :: others))) = false := by
        rw [split, starts, List.cons_append, atEnd, skipExtras_cons plain, List.isEmpty_cons]
      rw [split, starts, List.cons_append, List.length_cons, List.length_append] at enough
      obtain ⟨step, steps, rfl⟩ : ∃ step others, steps = step :: others := by
        apply List.exists_cons_of_ne_nil
        rintro rfl
        cases enough
      rw [List.length_cons] at enough
      obtain ⟨node, reads, sound, call⟩ := statement.reads (deep statement List.mem_cons_self) row
        (lead ++ margins margin) (lay (endRow margin row lead statement) _)
      obtain ⟨nodes, readsOthers, soundOthers, calls⟩ := ih (endRow_eq_lineBreaks reached statement)
        (fun other member => deep other (List.mem_cons_of_mem _ member))
        (show _ ≤ steps.length by omega)
      refine ⟨node :: nodes, ?_, List.forall_mem_cons.mpr ⟨sound, soundOthers⟩, ?_⟩
      · rw [← split] at reads
        exact .items_more goesOn reads readsOthers
      · rw [List.flatMap_cons, call, calls, row_eq_lineAfter reached, List.mapIdx_cons,
          List.take_zero, List.append_nil, List.singleton_append]
        simp only [List.take_succ_cons, List.append_assoc, List.singleton_append]

end Reached

/-- The tree of a script: its opening tag and, one after the other, its statements. -/
theorem exists_tree (margin : Nat) (statements : List Statement) :
    ∃ nodes, tree (Text.bytes (text margin statements)) =
        .ofKind .program (.ofToken .tag ⟨.tag, [], openingGlyphs, 0⟩ :: nodes) ∧
      (∀ node ∈ nodes, node.hasFault = false) ∧
      nodes.flatMap callsInPreOrder = statements.mapIdx fun index statement =>
        statement.call (lineAfter margin (statements.take index)) := by
  have tokens := tokens_text margin statements
  have deep : ∀ statement ∈ statements, ∀ value ∈ statement.arguments, (value.pieces []).length ≤
      8 * (scriptPieces margin [.char '\n'] statements).length + 14 := by
    intro statement member value passed
    have shorter : (value.pieces []).length ≤
        (scriptPieces margin [.char '\n'] statements).length :=
      length_le_scriptPieces member passed _
    omega
  have reached : 0 + Glyph.lineFeeds [.char '\n'] = lineBreaks (text margin []) := by
    rw [text, List.map_nil, String.join_nil, String.append_empty]
    rfl
  obtain ⟨nodes, reads, sound, calls⟩ := reads_statements reached deep (Nat.le_refl _)
  refine ⟨nodes, ?_, sound, calls⟩
  rw [tree, Glyph.decode_bytes, tokens]
  refine treeOfTokens_eq ?_
  have bound : nestingBound (⟨.tag, [], openingGlyphs, 0⟩ ::
      lay 0 (scriptPieces margin [.char '\n'] statements)).length =
        8 * (scriptPieces margin [.char '\n'] statements).length + 14 + 2 := by
    rw [List.length_cons, length_lay, nestingBound]
    omega
  rw [bound]
  exact reads_program rfl reads

end Script

/-- **Call sites are read back from source.**  A script of plain calls is parsed whatever its
strings hold, and its call sites are the calls as they are written, each in the line in which it
starts. -/
theorem callSites_script (path : String) (margin : Nat) (statements : List Script.Statement) :
    ∃ file, parse path (Text.bytes (Script.text margin statements)) = .ok file ∧
      callSites file = statements.mapIdx fun index statement =>
        statement.call (1 + Script.lineBreaks
          (Script.text margin (statements.take index) ++ Script.indent margin)) := by
  obtain ⟨nodes, root, sound, calls⟩ := Script.exists_tree margin statements
  have tagSilent := Node.Silent.ofToken (show Kind.tag.isSilent = true from rfl)
    ⟨.tag, [], Spaced.openingGlyphs, 0⟩
  have noFault : (tree (Text.bytes (Script.text margin statements))).hasFault = false := by
    rw [root, Node.ofKind, Node.hasFault_node, List.any_cons, tagSilent.sound, Bool.false_or,
      List.any_eq_false.mpr fun node member => by rw [sound node member]; exact Bool.false_ne_true]
    rfl
  refine ⟨_, if_neg (Bool.eq_false_iff.mp noFault), ?_⟩
  rw [callSites_eq]
  show callsInPreOrder (tree (Text.bytes (Script.text margin statements))) = _
  rw [root, Node.ofKind, callsInPreOrder_node, List.flatMap_cons, tagSilent.noCalls, calls]
  rfl

/-- Strings that hold a quote, a comment, a closing tag and a line break, an array in an array, and
calls of three forms. -/
def Script.mixed : List Script.Statement :=
  [⟨.nullsafe ⟨"api", by decide⟩ ⟨⟨"get", by decide⟩, by decide⟩,
      [.string ⟨"/it's # ?>\n", by decide⟩,
        .array [(⟨"timeout", by decide⟩, .variable ⟨"t", by decide⟩),
          (⟨"curl", by decide⟩, .array [(⟨"verify", by decide⟩, .variable ⟨"v", by decide⟩)])]]⟩,
    ⟨.rooted ⟨⟨"curl_exec", by decide⟩, by decide⟩, [.variable ⟨"handle", by decide⟩]⟩,
    ⟨.onStatic ⟨⟨"Client", by decide⟩, by decide⟩ ⟨⟨"create", by decide⟩, by decide⟩
      ⟨⟨"request", by decide⟩, by decide⟩, [.string ⟨"GET", by decide⟩]⟩]

theorem callSites_script_mixed :
    ∃ file, parse "a.php" (Text.bytes ("<?php\n" ++
        " $api?->get('/it\\'s # ?>\n', ['timeout' => $t, 'curl' => ['verify' => $v]]); \n" ++
        " \\curl_exec($handle); \n Client::create()->request('GET'); \n")) = .ok file ∧
      callSites file =
        [⟨.method, "get", some (.variable "api"),
            [⟨none, .literal "/it's # ?>\n"⟩, ⟨none, .options ["timeout", "curl"]⟩], 2⟩,
          ⟨.function, "curl_exec", none, [⟨none, .other⟩], 4⟩,
          ⟨.method, "request", some (.staticCall "Client"), [⟨none, .literal "GET"⟩], 5⟩] := by
  have written : Script.text 1 Script.mixed = "<?php\n" ++
      " $api?->get('/it\\'s # ?>\n', ['timeout' => $t, 'curl' => ['verify' => $v]]); \n" ++
      " \\curl_exec($handle); \n Client::create()->request('GET'); \n" := by decide +kernel
  obtain ⟨file, parsed, calls⟩ := callSites_script "a.php" 1 Script.mixed
  rw [written] at parsed
  exact ⟨file, parsed, calls.trans (by decide +kernel)⟩

end TimeoutAudit.Php
