import TimeoutAudit.Php.Literal
import TimeoutAudit.Php.Parse
import TimeoutAudit.Syntax.Cursor

/-!
# Call sites

A call site is what the detectors see of a call: its name, what it is made on,
and its arguments as far as they are literal.  Whatever is not a plain literal
is `other` and is never guessed at.  A call whose name is computed is no call
site.
-/

set_option autoImplicit false

namespace TimeoutAudit

open Php

/-- A free function or a method. -/
inductive CallKind where
  | function
  | method
deriving DecidableEq, Repr

/-- What a method is called on. -/
inductive Receiver where
  /-- A bare variable, by its name without `$`. -/
  | variable (name : String)
  /-- The result of a static call, by its class. -/
  | staticCall (className : String)
  | other
deriving DecidableEq, Repr

/-- What is passed as an argument. -/
inductive ArgumentValue where
  /-- A quoted string without interpolation. -/
  | literal (text : String)
  /-- An array, by those of its keys that are literal strings. -/
  | options (keys : List String)
  | other
deriving DecidableEq, Repr

/-- One argument of a call. -/
structure Argument where
  /-- The name of a named argument. -/
  name : Option String
  value : ArgumentValue
deriving DecidableEq, Repr

/-- A call at a line of a file. -/
structure CallSite where
  kind : CallKind
  name : String
  receiver : Option Receiver
  arguments : List Argument
  line : Nat
deriving DecidableEq, Repr

namespace Argument

/-- Whether an argument stands without a name. -/
def isPositional (argument : Argument) : Bool := argument.name.isNone

end Argument

namespace CallSite

/-! ## Questions about a call -/

/-- A call of the free function `name`. -/
def isFunction (call : CallSite) (name : String) : Bool :=
  call.kind == .function && call.name == name

/-- A call of a method `name`, on anything. -/
def isMethod (call : CallSite) (name : String) : Bool :=
  call.kind == .method && call.name == name

/-- The variable that the call is made on. -/
def receiverVariable? (call : CallSite) : Option String :=
  match call.receiver with
  | some (.variable name) => some name
  | _ => none

/-- The class of the static call that the call is made on. -/
def receiverClass? (call : CallSite) : Option String :=
  match call.receiver with
  | some (.staticCall className) => some className
  | _ => none

/-- The first argument, if it is positional and literal. -/
def firstLiteral? (call : CallSite) : Option String :=
  match call.arguments with
  | [] => none
  | first :: _ =>
    if first.isPositional then
      match first.value with
      | .literal text => some text
      | _ => none
    else none

/-- Whether an argument is an array with the given key. -/
def hasOption (call : CallSite) (key : String) : Bool :=
  call.arguments.any fun argument =>
    match argument.value with
    | .options keys => keys.contains key
    | _ => false

/-! ## Reading a call off the syntax tree -/

/-- The text without the given character in front. -/
def trimLeading (c : Char) (text : String) : String := String.ofList (text.toList.dropWhile (· == c))

/-- Kinds of nodes that hold no interpolated value. -/
def isPlainPart (node : Node) : Bool :=
  !node.isNamed || node.kind == .stringContent || node.kind == .string

/-- The text of a string without interpolation. -/
def literalText? (node : Node) : Option String :=
  if node.children.all isPlainPart then Literal.denoted? node.text.toList else none

/-- The text of a node that is a plain string. -/
def plainString? (node : Node) : Option String :=
  match node.kind with
  | .string | .template => literalText? node
  | _ => none

/-- The key of an array element: the last named node in front of its arrow. -/
def elementKey? (element : Node) : Option String :=
  let isArrow (child : Node) : Bool := child.isMark "=>"
  if element.children.any isArrow then
    ((element.children.takeWhile fun child => !isArrow child).reverse.find? Node.isNamed).bind
      plainString?
  else none

/-- The literal keys of an array, in order. -/
def literalKeys (array : Node) : List String :=
  (array.children.filter fun (child : Node) => child.kind == .arrayElement).filterMap elementKey?

/-- What an expression is as an argument. -/
def valueOf (node : Node) : ArgumentValue :=
  match node.kind with
  | .string | .template =>
    match literalText? node with
    | some text => .literal text
    | none => .other
  | .array => .options (literalKeys node)
  | _ => .other

/-- One argument, from its node. -/
def argumentOf (node : Node) : Argument where
  name := (node.child? .name).map Node.text
  value :=
    match (node.children.filter fun (child : Node) =>
        child.isNamed && child.label.field != some .name
          && child.kind != .referenceModifier).getLast? with
    | some value => valueOf value
    | none => .other

/-- The arguments of a call, from the node of the call. -/
def argumentsOf (call : Node) : List Argument :=
  match call.child? .arguments with
  | some arguments => (arguments.children.filter fun (child : Node) => child.kind == .argument).map argumentOf
  | none => []

/-- Kinds of nodes that name a class or function as written. -/
def isPlainName : Kind → Bool
  | .name | .qualifiedName => true
  | _ => false

/-- What a method is called on, from its node. -/
def receiverOf (node : Node) : Receiver :=
  match node.kind with
  | .variable => .variable (trimLeading '$' node.text)
  | .staticCall =>
    match node.child? .scope, node.child? .name with
    | some scope, some name =>
      if (isPlainName scope.kind || scope.kind == .relativeScope) && name.kind == .name then
        .staticCall (trimLeading '\\' scope.text)
      else .other
    | _, _ => .other
  | _ => .other

/-- A call of a free function by its name. -/
def ofFunctionCall? (node : Node) : Option CallSite :=
  match node.child? .callee with
  | some callee =>
    if isPlainName callee.kind then
      some {
        kind := .function
        name := trimLeading '\\' callee.text
        receiver := none
        arguments := argumentsOf node
        line := lineOf node }
    else none
  | none => none

/-- A call of a method by its name. -/
def ofMethodCall? (node : Node) : Option CallSite :=
  match node.child? .name with
  | some name =>
    if name.kind == .name then
      some {
        kind := .method
        name := name.text
        receiver := some (((node.child? .object).map receiverOf).getD .other)
        arguments := argumentsOf node
        line := lineOf node }
    else none
  | none => none

/-- The call site at a node, if it is one. -/
def ofNode? (node : Node) : Option CallSite :=
  match node.kind with
  | .functionCall => ofFunctionCall? node
  | .methodCall | .nullsafeMethodCall => ofMethodCall? node
  | _ => none

end CallSite

/-- What `visit` says of the named nodes of a file, parents before children. -/
def Php.ParsedFile.walk {β : Type} (file : ParsedFile) (visit : Node → Option β) : List β :=
  file.tree.walk fun (node : Node) => if node.isNamed then visit node else none

/-- The call sites of a file, parents before children. -/
def callSites (file : ParsedFile) : List CallSite := file.walk CallSite.ofNode?

end TimeoutAudit
