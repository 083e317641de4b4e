import TimeoutAudit.Php.Grammar.Expression

/-!
# Statements

The word in front of a statement decides what it is; any other statement is an
expression.  Control structures have two spellings, one around a single
statement and one between a colon and a closing keyword.
-/

set_option autoImplicit false

namespace TimeoutAudit.Php.Grammar

open Reader

variable (rules : Rules)

/-! ## Bodies -/

/-- Statements up to one of the given keywords. -/
def statementsUntil (ends : List String) : Reader :=
  itemsUntil (fun input => atKeywordOf ends input || atEnd input) (rules .statement)

/-- A body between a colon and the given keyword. -/
def colonBody (ending : String) : Reader :=
  symbol ":" >> statementsUntil rules [ending] >> keyword ending >> semicolon

/-- A body in either spelling. -/
def body (ending : String) : Reader :=
  choose (atSymbol ":") (colonBody rules ending) (rules .statement)

/-! ## Branches -/

/-- Whether an `else` belongs to the single-statement spelling. -/
def atPlainElse (input : List Token) : Bool :=
  atKeyword "else" input && !((second? input).any (·.isSymbol ":"))

/-- What follows the condition of an `if` around single statements. -/
def plainBranches : Reader :=
  rules .statement
    >> itemsUntil (fun input => !atKeyword "elseif" input)
      (node .elseClause (keyword "elseif" >> parenthesized rules >> rules .statement))
    >> when atPlainElse (node .elseClause (keyword "else" >> rules .statement))

/-- Keywords that end a branch between colons. -/
def branchEnds : List String := ["elseif", "else", "endif"]

/-- Whether another condition follows between colons. -/
def atElseIf (input : List Token) : Bool :=
  atKeyword "elseif" input
    || (atKeyword "else" input && (second? input).any (·.isKeyword "if"))

/-- What follows the condition of an `if` between colons. -/
def colonBranches : Reader :=
  symbol ":" >> statementsUntil rules branchEnds
    >> itemsUntil (fun input => !atElseIf input)
      (node .elseClause
        (choose (atKeyword "elseif") (keyword "elseif") (keyword "else" >> keyword "if")
          >> parenthesized rules >> symbol ":" >> statementsUntil rules branchEnds))
    >> when (atKeyword "else")
      (node .elseClause (keyword "else" >> symbol ":" >> statementsUntil rules branchEnds))
    >> keyword "endif" >> semicolon

/-- `if`. -/
def ifStatement : Reader :=
  node .ifStatement
    (keyword "if" >> parenthesized rules
      >> choose (atSymbol ":") (colonBranches rules) (plainBranches rules))

/-- Whether a case of a `switch` ends here. -/
def atCaseEnd (input : List Token) : Bool :=
  atKeywordOf ["case", "default", "endswitch"] input || atBlockEnd input

/-- One case of a `switch`. -/
def switchCase : Reader :=
  node .switchCase
    (choose (atKeyword "case") (keyword "case" >> expression rules) (keyword "default")
      >> choose (atSymbol ":") (symbol ":") semicolon
      >> itemsUntil atCaseEnd (rules .statement))

/-- `switch`. -/
def switchStatement : Reader :=
  node .switchStatement
    (keyword "switch" >> parenthesized rules
      >> choose (atSymbol ":")
        (symbol ":"
          >> itemsUntil (fun input => atKeyword "endswitch" input || atEnd input) (switchCase rules)
          >> keyword "endswitch" >> semicolon)
        (symbol "\x7b" >> itemsUntil atBlockEnd (switchCase rules) >> closing "\x7d"))

/-! ## Loops -/

/-- `while`. -/
def whileStatement : Reader :=
  node .whileStatement (keyword "while" >> parenthesized rules >> body rules "endwhile")

/-- `do`. -/
def doStatement : Reader :=
  node .doStatement
    (keyword "do" >> rules .statement >> keyword "while" >> parenthesized rules >> semicolon)

/-- Expressions in one place of a `for`, up to the given symbol. -/
def forPart (ending : String) : Reader :=
  when (fun input => !atSymbol ending input) (oneOrMore (expression rules)) >> symbol ending

/-- `for`. -/
def forStatement : Reader :=
  node .forStatement
    (keyword "for" >> symbol "(" >> forPart rules ";" >> forPart rules ";" >> forPart rules ")"
      >> body rules "endfor")

/-- `foreach`. -/
def foreachStatement : Reader :=
  node .foreachStatement
    (keyword "foreach" >> symbol "(" >> expression rules >> keyword "as" >> elementValue rules
      >> when (atSymbol "=>") (symbol "=>" >> elementValue rules) >> symbol ")"
      >> body rules "endforeach")

/-! ## Small statements -/

/-- Whether a statement may end here. -/
def atSemicolon (input : List Token) : Bool :=
  (input.dropWhile fun first => first.lexeme == .comment).head?.any fun first =>
    first.lexeme == .passage || first.isSymbol ";"

/-- A keyword, perhaps with an expression. -/
def withOptionalValue (kind : Kind) : Reader :=
  node kind (anyMark >> choose atSemicolon nothing (expression rules) >> semicolon)

/-- `try`. -/
def tryStatement : Reader :=
  node .tryStatement
    (keyword "try" >> block rules
      >> choose (atKeywordOf ["catch", "finally"]) nothing refuse
      >> itemsUntil (fun input => !atKeywordOf ["catch", "finally"] input)
        (choose (atKeyword "catch")
          (node .catchClause
            (keyword "catch" >> symbol "(" >> type
              >> when (atSymbol "$") plainVariable >> symbol ")" >> block rules))
          (node .finallyClause (keyword "finally" >> block rules))))

/-- `declare`. -/
def declareStatement : Reader :=
  node .declareStatement
    (keyword "declare" >> symbol "(" >> oneOrMore (constant rules) >> symbol ")"
      >> choose atSemicolon semicolon (body rules "enddeclare"))

/-- `exit`. -/
def exitStatement : Reader :=
  node .exitStatement
    (keyword "exit"
      >> when (atSymbol "(")
        (symbol "(" >> when (fun input => !atSymbol ")" input) (expression rules) >> symbol ")")
      >> semicolon)

/-- `unset`. -/
def unsetStatement : Reader :=
  node .unsetStatement
    (keyword "unset" >> symbol "(" >> commas (atSymbol ")") (expression rules) >> symbol ")"
      >> semicolon)

/-- `global`. -/
def globalDeclaration : Reader :=
  node .globalDeclaration (keyword "global" >> oneOrMore (simpleVariable rules) >> semicolon)

/-- `static` variables of a function. -/
def staticDeclaration : Reader :=
  node .staticDeclaration
    (keyword "static" >> oneOrMore (plainVariable >> defaultValue rules) >> semicolon)

/-! ## Namespaces -/

/-- `namespace`. -/
def namespaceDefinition : Reader :=
  node .namespaceDefinition
    (keyword "namespace"
      >> choose (atSymbol "\x7b") (block rules)
        (word .name >> segments >> choose (atSymbol "\x7b") (block rules) semicolon))

/-- What is imported: perhaps a function or a constant, perhaps under another name. -/
def importClause : Reader :=
  when (atKeywordOf ["function", "const"]) anyMark >> name
    >> when (atKeyword "as") (keyword "as" >> word .name)

/-- An import, or a group of imports with a common beginning. -/
def importItem : Reader :=
  importClause
    >> when (atSymbol "\\")
      (symbol "\\" >> symbol "\x7b" >> listUntil "\x7d" importClause)

/-- `use` at the top of a file. -/
def useDeclaration : Reader :=
  node .useDeclaration (keyword "use" >> oneOrMore importItem >> semicolon)

/-! ## Dispatch -/

/-- An expression as a statement. -/
def expressionStatement : Reader := node .expressionStatement (expression rules >> semicolon)

/-- Whether a function with a name is declared here. -/
def declaresFunction (input : List Token) : Bool :=
  (second? input).any isWord
    || ((second? input).any (·.isSymbol "&") && (third? input).any isWord)

/-- The statement that starts with the given word. -/
def wordStatement (folded : String) : Reader :=
  match folded with
  | "if" => ifStatement rules
  | "switch" => switchStatement rules
  | "while" => whileStatement rules
  | "do" => doStatement rules
  | "for" => forStatement rules
  | "foreach" => foreachStatement rules
  | "goto" => node .gotoStatement (keyword "goto" >> word .name >> semicolon)
  | "continue" | "break" => withOptionalValue rules .jumpStatement
  | "return" => withOptionalValue rules .returnStatement
  | "try" => tryStatement rules
  | "declare" => declareStatement rules
  | "echo" => node .echoStatement (keyword "echo" >> oneOrMore (expression rules) >> semicolon)
  | "exit" => exitStatement rules
  | "unset" => unsetStatement rules
  | "const" => node .constDeclaration (keyword "const" >> oneOrMore (constant rules) >> semicolon)
  | "function" =>
    choose (fun input => declaresFunction (pastAttributes input)) (functionDefinition rules)
      (expressionStatement rules)
  | "abstract" | "final" | "readonly" | "class" => classDeclaration rules
  | "interface" => interfaceDeclaration rules
  | "trait" => traitDeclaration rules
  | "enum" => enumDeclaration rules
  | "namespace" => namespaceDefinition rules
  | "use" => useDeclaration
  | "global" => globalDeclaration rules
  | "static" =>
    choose (fun input => (second? input).any (·.isSymbol "$")) (staticDeclaration rules)
      (expressionStatement rules)
  | _ =>
    choose (fun input => (second? input).any (·.isSymbol ":"))
      (node .label (word .name >> symbol ":")) (expressionStatement rules)

/-- A statement. -/
def statement : Reader := located fun input =>
  match (next? (pastAttributes input)).map Token.lexeme with
  | some (.word folded) => wordStatement rules folded input
  | some (.symbol "\x7b") => block rules input
  | some (.symbol ";") => node .emptyStatement (symbol ";") input
  | _ => expressionStatement rules input

/-- A whole file: plain text, then statements after an opening tag. -/
def program : Reader :=
  node .program
    (when (fun input => (next? input).any fun first => first.lexeme == .text) (lexeme .text .text)
      >> choose atEnd nothing (lexeme .tag .tag >> itemsUntil atEnd (rules .statement))
      >> extras)

/-! ## The recursive constructs -/

/-- How each construct is read, with a bound on how deeply they nest. -/
def rulesWithin : Nat → Rules
  | 0, _ => refuse
  | depth + 1, .expression floor holes => expressionFrom (rulesWithin depth) floor holes
  | depth + 1, .statement => statement (rulesWithin depth)

end TimeoutAudit.Php.Grammar
