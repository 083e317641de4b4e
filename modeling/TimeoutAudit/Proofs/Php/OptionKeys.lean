import TimeoutAudit.Proofs.Detection
import TimeoutAudit.Proofs.Php.DoubleQuoted
import TimeoutAudit.Proofs.Text.Lossy

/-!
# Which literals are option keys

The text of a double-quoted body is shown with U+FFFD in place of bytes that are no text, so
different bodies may be read alike.  A key without U+FFFD is read off a body only if the body
denotes exactly the bytes of the key (`Literal.unescapeDouble_eq_iff`), and the same is true of
whole literals (`Literal.denoted?_eq_some_iff`).

A call has an option if an array among its arguments has the option as a literal key
(`CallSite.hasOption_iff_passes`).  Put together, a call is said to have an option only on account
of a literal that stands in front of an arrow and denotes precisely the bytes of its name
(`CallSite.option_denoted`).
-/

set_option autoImplicit false

namespace TimeoutAudit

open Php (Node)

/-! ## Literals -/

namespace Php.Literal

/-- **A body is read as a key without U+FFFD only if it denotes the bytes of the key.** -/
theorem unescapeDouble_eq_iff {body : List Char} {bytes : List UInt8} (denotes : Denotes body bytes)
    {key : String} (clean : '\uFFFD' ∉ key.toList) :
    unescapeDouble body = key ↔ bytes = Text.bytes key := by
  rw [unescapeDouble, denotes_iff.mp denotes, Text.decodeLossy_eq_iff clean]

/-- A literal is a body between quotation marks, perhaps with a `b` in front. -/
def Quotes (mark : Char) (body literal : List Char) : Prop :=
  ∃ lead ∈ [[], ['b'], ['B']], literal = lead ++ mark :: (body ++ [mark])

/-- The bytes that a quoted literal denotes. -/
inductive Means : List Char → List UInt8 → Prop where
  | single {literal body : List Char} (quotes : Quotes '\'' body literal) :
      Means literal ((unescapeSingle body).flatMap String.utf8EncodeChar)
  | double {literal body : List Char} {bytes : List UInt8} (quotes : Quotes '"' body literal)
      (denotes : Denotes body bytes) : Means literal bytes

/-- The text of a literal, by its quotation mark. -/
theorem denoted?_eq_some_iff_quotes {literal : List Char} {text : String} :
    denoted? literal = some text ↔
      (∃ body, Quotes '\'' body literal ∧ text = String.ofList (unescapeSingle body)) ∨
        ∃ body, Quotes '"' body literal ∧ text = unescapeDouble body := by
  constructor
  · intro found
    unfold denoted? at found
    dsimp only at found
    split at found
    · cases found
    · next mark rest marked =>
        split at found
        · next closed =>
            simp only [Bool.and_eq_true, Bool.or_eq_true, beq_iff_eq] at closed
            obtain ⟨isMark, last⟩ := closed
            obtain ⟨body, rfl⟩ := List.getLast?_eq_some_iff.mp last
            have quotes : Quotes mark body literal := by
              split at marked
              · exact ⟨['b'], by simp, congrArg _ marked⟩
              · exact ⟨['B'], by simp, congrArg _ marked⟩
              · exact ⟨[], by simp, marked⟩
            rw [List.dropLast_concat, Option.some.injEq] at found
            rcases isMark with rfl | rfl
            · exact .inl ⟨body, quotes, found.symm⟩
            · exact .inr ⟨body, quotes, found.symm⟩
        · cases found
  · rintro (⟨body, ⟨lead, isLead, rfl⟩, rfl⟩ | ⟨body, ⟨lead, isLead, rfl⟩, rfl⟩)
    all_goals
      simp only [List.mem_cons, List.not_mem_nil, or_false] at isLead
      rcases isLead with rfl | rfl | rfl
      all_goals simp [denoted?]

/-- **A literal is read as a key without U+FFFD only if it denotes the bytes of the key.** -/
theorem denoted?_eq_some_iff {literal : List Char} {key : String}
    (clean : '\uFFFD' ∉ key.toList) :
    denoted? literal = some key ↔ Means literal (Text.bytes key) := by
  rw [denoted?_eq_some_iff_quotes]
  constructor
  · rintro (⟨body, quotes, rfl⟩ | ⟨body, quotes, read⟩)
    · rw [Text.bytes_eq, String.toList_ofList]
      exact .single quotes
    · have denotes : Denotes body (denotedBytes body) := denotes_iff.mpr rfl
      rw [← (unescapeDouble_eq_iff denotes clean).mp read.symm]
      exact .double quotes denotes
  · intro means
    generalize same : Text.bytes key = bytes at means
    cases means with
    | single quotes =>
        refine .inl ⟨_, quotes, Text.bytes_inj.mp (same.trans ?_)⟩
        rw [Text.bytes_eq, String.toList_ofList]
    | double quotes denotes =>
        exact .inr ⟨_, quotes, ((unescapeDouble_eq_iff denotes clean).mpr same.symm).symm⟩

end Php.Literal

/-! ## Arguments of a call -/

namespace CallSite

open Php.Literal (Denotes Leads Means denoted? denoted?_eq_some_iff denotes_iff unescapeDouble
  unescapeDouble_eq_iff)

/-- A string without interpolation, by the bytes that it denotes. -/
structure PlainString (node : Node) (bytes : List UInt8) : Prop where
  kind : node.kind = .string ∨ node.kind = .template
  plain : ∀ part ∈ node.children, isPlainPart part = true
  means : Means node.text.toList bytes

/-- The key of an array element is the last named node in front of its first arrow. -/
def IsKeyOf (key element : Node) : Prop :=
  ∃ front between arrow back, element.children = front ++ key :: (between ++ arrow :: back) ∧
    arrow.isMark "=>" = true ∧
    (∀ child ∈ front ++ key :: between, Node.isMark child "=>" = false) ∧
    key.isNamed = true ∧ ∀ child ∈ between, child.isNamed = false

/-- A node is a key of an array. -/
def KeyIn (array key : Node) : Prop :=
  ∃ element : Node, element ∈ array.children ∧ element.kind = .arrayElement ∧ IsKeyOf key element

/-- Parts of an argument that are neither its name nor a mark of reference. -/
def isValuePart (part : Node) : Bool :=
  part.isNamed && part.label.field != some .name && part.kind != .referenceModifier

/-- An array is an argument of a call: the last part of the argument that is a value. -/
def PassesArray (call array : Node) : Prop :=
  ∃ list argument : Node, call.child? .arguments = some list ∧ argument ∈ list.children ∧
    argument.kind = .argument ∧ (argument.children.filter isValuePart).getLast? = some array ∧
    array.kind = .array

theorem literalText?_eq_some_iff {node : Node} {text : String} :
    literalText? node = some text ↔ (∀ part ∈ node.children, isPlainPart part = true) ∧
      denoted? node.text.toList = some text := by
  rw [literalText?, Option.ite_none_right_eq_some, List.all_eq_true]

theorem plainString?_eq_some_iff {node : Node} {key : String} (clean : '\uFFFD' ∉ key.toList) :
    plainString? node = some key ↔ PlainString node (Text.bytes key) := by
  constructor
  · intro found
    unfold plainString? at found
    split at found
    · next kind =>
        rw [literalText?_eq_some_iff, denoted?_eq_some_iff clean] at found
        exact ⟨.inl kind, found.1, found.2⟩
    · next kind =>
        rw [literalText?_eq_some_iff, denoted?_eq_some_iff clean] at found
        exact ⟨.inr kind, found.1, found.2⟩
    · cases found
  · rintro ⟨kind, plain, means⟩
    have text := literalText?_eq_some_iff.mpr
      ⟨plain, (denoted?_eq_some_iff clean).mpr means⟩
    rcases kind with kind | kind <;> rw [plainString?, kind] <;> exact text

theorem takeWhile_before_arrow {before back : List Node} {arrow : Node}
    (isArrow : arrow.isMark "=>" = true)
    (earlier : ∀ child ∈ before, Node.isMark child "=>" = false) :
    ((before ++ arrow :: back).takeWhile fun child => !Node.isMark child "=>") = before := by
  rw [List.takeWhile_append_of_pos fun child member => by rw [earlier child member]; rfl,
    List.takeWhile_cons_of_neg (by simp [isArrow]), List.append_nil]

/-- The key of an element is found by going back from its first arrow. -/
theorem isKeyOf_iff {key element : Node} :
    IsKeyOf key element ↔
      (∃ child ∈ element.children, Node.isMark child "=>" = true) ∧
        (element.children.takeWhile fun child => !Node.isMark child "=>").reverse.find?
          Node.isNamed = some key := by
  rw [List.find?_eq_some_iff_append]
  constructor
  · rintro ⟨front, between, arrow, back, split, isArrow, earlier, named, unnamed⟩
    rw [← List.cons_append, ← List.append_assoc] at split
    rw [split, takeWhile_before_arrow isArrow earlier]
    refine ⟨⟨arrow, by simp, isArrow⟩, named, between.reverse, front.reverse, by simp, ?_⟩
    intro child member
    rw [unnamed child (List.mem_reverse.mp member)]
    rfl
  · rintro ⟨someArrow, named, between, front, backwards, unnamed⟩
    obtain ⟨arrow, found⟩ := Option.isSome_iff_exists.mp
      (List.find?_isSome (p := fun child => Node.isMark child "=>") |>.mpr someArrow)
    obtain ⟨isArrow, before, back, split, earlier⟩ := List.find?_eq_some_iff_append.mp found
    simp only [Bool.not_eq_true'] at earlier unnamed
    rw [split, takeWhile_before_arrow isArrow earlier, List.reverse_eq_append_iff,
      List.reverse_cons, List.append_assoc, List.singleton_append] at backwards
    subst backwards
    refine ⟨front.reverse, between.reverse, arrow, back, by simpa using split, isArrow, earlier,
      named, fun child member => unnamed child (List.mem_reverse.mp member)⟩

theorem elementKey?_eq_some_iff {element : Node} {text : String} :
    elementKey? element = some text ↔
      ∃ key, IsKeyOf key element ∧ plainString? key = some text := by
  simp only [elementKey?, Option.ite_none_right_eq_some, List.any_eq_true, Option.bind_eq_some_iff,
    isKeyOf_iff, and_assoc, exists_and_left]

theorem mem_literalKeys_iff {array : Node} {key : String} (clean : '\uFFFD' ∉ key.toList) :
    key ∈ literalKeys array ↔ ∃ node, KeyIn array node ∧ PlainString node (Text.bytes key) := by
  rw [literalKeys, List.mem_filterMap]
  simp only [List.mem_filter, beq_iff_eq, elementKey?_eq_some_iff, plainString?_eq_some_iff clean]
  constructor
  · rintro ⟨element, ⟨member, kind⟩, node, isKey, plain⟩
    exact ⟨node, ⟨element, member, kind, isKey⟩, plain⟩
  · rintro ⟨node, ⟨element, member, kind, isKey⟩, plain⟩
    exact ⟨element, ⟨member, kind⟩, node, isKey, plain⟩

theorem arguments_of_ofNode? {node : Node} {call : CallSite} (site : ofNode? node = some call) :
    call.arguments = argumentsOf node := by
  have ofMethod (site : ofMethodCall? node = some call) : call.arguments = argumentsOf node := by
    unfold ofMethodCall? at site
    split at site
    · split at site
      · cases site
        rfl
      · cases site
    · cases site
  unfold ofNode? at site
  split at site
  · unfold ofFunctionCall? at site
    split at site
    · split at site
      · cases site
        rfl
      · cases site
    · cases site
  · exact ofMethod site
  · exact ofMethod site
  · cases site

theorem mem_argumentsOf_iff {node : Node} {argument : Argument} :
    argument ∈ argumentsOf node ↔
      ∃ list passed : Node, node.child? .arguments = some list ∧ passed ∈ list.children ∧
        passed.kind = .argument ∧ argumentOf passed = argument := by
  unfold argumentsOf
  split
  · next list found =>
      simp only [found, Option.some.injEq, exists_and_left, exists_eq_left', List.mem_map,
        List.mem_filter, beq_iff_eq, and_assoc]
  · next none => simp [none]

theorem valueOf_eq_options_iff {node : Node} {keys : List String} :
    valueOf node = .options keys ↔ node.kind = .array ∧ literalKeys node = keys := by
  unfold valueOf
  split
  · next kind => split <;> simp [kind]
  · next kind => split <;> simp [kind]
  · next kind => simp [kind]
  · next notArray => exact ⟨ArgumentValue.noConfusion, fun array => absurd array.1 notArray⟩

theorem value_argumentOf_iff {argument : Node} {keys : List String} :
    (argumentOf argument).value = .options keys ↔
      ∃ array : Node, (argument.children.filter isValuePart).getLast? = some array ∧
        array.kind = .array ∧ literalKeys array = keys := by
  unfold argumentOf
  dsimp only
  split
  · next array found =>
      have last : (argument.children.filter isValuePart).getLast? = some array := found
      simp [last, valueOf_eq_options_iff]
  · next found =>
      have last : (argument.children.filter isValuePart).getLast? = none := found
      simp [last]

theorem hasOption_iff_passes {node : Node} {call : CallSite} (site : ofNode? node = some call)
    (key : String) :
    call.hasOption key = true ↔ ∃ array, PassesArray node array ∧ key ∈ literalKeys array := by
  rw [hasOption_iff, arguments_of_ofNode? site]
  simp only [mem_argumentsOf_iff]
  constructor
  · rintro ⟨argument, ⟨list, passed, found, member, kind, rfl⟩, keys, value, listed⟩
    obtain ⟨array, last, isArray, rfl⟩ := value_argumentOf_iff.mp value
    exact ⟨array, ⟨list, passed, found, member, kind, last, isArray⟩, listed⟩
  · rintro ⟨array, ⟨list, passed, found, member, kind, last, isArray⟩, listed⟩
    exact ⟨_, ⟨list, passed, found, member, kind, rfl⟩, _,
      value_argumentOf_iff.mpr ⟨array, last, isArray, rfl⟩, listed⟩

/-! ## Options of a call -/

/-- A call has an option without U+FFFD on account of a literal that denotes its bytes. -/
theorem hasOption_iff_denoted {node : Node} {call : CallSite} (site : ofNode? node = some call)
    {key : String} (clean : '\uFFFD' ∉ key.toList) :
    call.hasOption key = true ↔
      ∃ array literal, PassesArray node array ∧ KeyIn array literal ∧
        PlainString literal (Text.bytes key) := by
  simp only [hasOption_iff_passes site, mem_literalKeys_iff clean, exists_and_left]

/-- **No option key is made up in reading.**  Every double-quoted body denotes one list of bytes,
and it is read as a key without U+FFFD exactly when these are the bytes of the key.  So a call has
an option only if one of its arrays has a literal key that denotes precisely the bytes of its name,
which are seven for `timeout`. -/
theorem option_denoted :
    (∀ body, ∃! bytes, Denotes body bytes) ∧
    (∀ body bytes, Denotes body bytes → ∀ key : String, '\uFFFD' ∉ key.toList →
      (unescapeDouble body = key ↔ bytes = Text.bytes key)) ∧
    (∀ node call, ofNode? node = some call → ∀ key : String, '\uFFFD' ∉ key.toList →
      (call.hasOption key = true ↔ ∃ array literal, PassesArray node array ∧ KeyIn array literal ∧
        PlainString literal (Text.bytes key))) ∧
    Text.bytes "timeout" = [0x74, 0x69, 0x6D, 0x65, 0x6F, 0x75, 0x74] := by
  refine ⟨fun body => ?_, fun body bytes denotes key clean => ?_,
    fun node call site key clean => ?_, by decide⟩
  · exact ⟨_, denotes_iff.mpr rfl, fun bytes denotes => (denotes_iff.mp denotes).symm⟩
  · exact unescapeDouble_eq_iff denotes clean
  · exact hasOption_iff_denoted site clean

/-- A call with one option, whose key is spelled with escapes in two bases. -/
def escapedTimeout : List UInt8 :=
  "<?php $c->get($u, [\"\\x74\\151meout\" => 5]);".toUTF8.toList

/-- An escaped key is found where it denotes the seven bytes, and a byte more makes another key. -/
theorem option_denoted_escaped :
    (∃ node call array literal, ofNode? node = some call ∧ PassesArray node array ∧
      KeyIn array literal ∧ PlainString literal [0x74, 0x69, 0x6D, 0x65, 0x6F, 0x75, 0x74]) ∧
    unescapeDouble "t\\xff".toList ≠ "t" := by
  obtain ⟨-, bodies, calls, seven⟩ := option_denoted
  constructor
  · have escaped : ((Php.tree escapedTimeout).subtrees.any fun node =>
        (ofNode? node).any (·.hasOption "timeout")) = true := by decide +kernel
    obtain ⟨node, -, called⟩ := List.any_eq_true.mp escaped
    obtain ⟨call, site, has⟩ := (Option.any_eq_true _ _).mp called
    obtain ⟨array, literal, passes, keyIn, plain⟩ := (calls node call site _ (by decide)).mp has
    exact ⟨node, call, array, literal, site, passes, keyIn, seven ▸ plain⟩
  · have leads : Leads 16 2 "ff".toList "ff".toList 255 [] :=
      ⟨rfl, ⟨[15, 15], .cons (by decide) (.cons (by decide) .nil), by decide, rfl⟩, by decide,
        by decide, by simp⟩
    have denotes : Denotes "t\\xff".toList [0x74, 0xFF] :=
      .char (by decide) (.escape (.hexadecimal leads) .nil)
    rw [ne_eq, bodies _ _ denotes "t" (by decide)]
    decide

end CallSite

end TimeoutAudit
