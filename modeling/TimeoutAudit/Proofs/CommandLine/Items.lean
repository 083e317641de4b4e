import Mathlib.Data.List.TakeWhile
import TimeoutAudit.CommandLine.Arguments

/-!
# Items of a command line

What stands behind a command is a list of items: options, each in one of the ways in which it can be
written (`CommandLine.Spelling`), and a path.  A value that stands apart from its option is looked
at only when the next item comes or the line ends, so the draft that counts is the one that is known
once the pending value is settled (`CommandLine.Reached`).

`CommandLine.Reached.item` is the step: reading an item changes this draft by what the item says,
whatever was read before and whatever follows.
-/

set_option autoImplicit false

namespace TimeoutAudit.CommandLine

/-! ## Items and how they are written -/

/-- How an option and its value are written. -/
inductive Spelling where
  /-- `--option value` -/
  | longApart
  /-- `--option=value` -/
  | longJoined
  /-- `-o value` -/
  | letterApart
  /-- `-ovalue` -/
  | letterAttached
  /-- `-o=value` -/
  | letterJoined
deriving DecidableEq, Repr

/-- An option by its long name. -/
def Slot.longText (slot : Slot) : String := "--" ++ slot.long

/-- An option by its letter. -/
def Slot.letterText (slot : Slot) : String := "-" ++ String.ofList slot.letter?.toList

/-- The arguments for an option with a value. -/
def Spelling.arguments (slot : Slot) (value : String) : Spelling → List String
  | longApart => [slot.longText, value]
  | longJoined => [slot.longText ++ "=" ++ value]
  | letterApart => [slot.letterText, value]
  | letterAttached => [slot.letterText ++ value]
  | letterJoined => [slot.letterText ++ "=" ++ value]

/-- What can be said behind a command. -/
inductive Item where
  | verbose (byLetter : Bool)
  | showSuppressed
  | failOnSkipped
  | format (spelling : Spelling) (name : String)
  | config (spelling : Spelling) (file : String)
  | jobs (spelling : Spelling) (count : Nat)
  | output (spelling : Spelling) (file : String)
  | path (root : String)
deriving DecidableEq, Repr

/-- A value that cannot be taken for an option, nor for one that is joined to its letter. -/
structure Plain (text : String) : Prop where
  nonempty : text ≠ ""
  noHyphen : text.toList.head? ≠ some '-'
  noEquals : text.toList.head? ≠ some '='

namespace Item

/-- What an item sets. -/
def slot : Item → Slot
  | verbose _ => .verbose
  | showSuppressed => .showSuppressed
  | failOnSkipped => .failOnSkipped
  | format _ _ => .format
  | config _ _ => .config
  | jobs _ _ => .jobs
  | output _ _ => .output
  | path _ => .path

/-- The arguments that an item is written as. -/
def arguments : Item → List String
  | verbose byLetter => [if byLetter then Slot.verbose.letterText else Slot.verbose.longText]
  | showSuppressed => [Slot.showSuppressed.longText]
  | failOnSkipped => [Slot.failOnSkipped.longText]
  | format spelling name => spelling.arguments .format name
  | config spelling file => spelling.arguments .config file
  | jobs spelling count => spelling.arguments .jobs (toString count)
  | output spelling file => spelling.arguments .output file
  | path root => [root]

/-- The draft with what an item says. -/
def fill (draft : Draft) : Item → Draft
  | verbose _ => { draft with verbose := true }
  | showSuppressed => { draft with showSuppressed := true }
  | failOnSkipped => { draft with failOnSkipped := true }
  | format _ name => { draft with format := some name }
  | config _ file => { draft with config := some file }
  | jobs _ count => { draft with jobs := some count }
  | output _ file => { draft with output := some file }
  | path root => { draft with path := some root }

/-- An item with a value that can be told from an option. -/
def Sound : Item → Prop
  | format _ name => Plain name
  | config _ file => Plain file
  | jobs _ count => count < UInt64.size
  | output _ file => Plain file
  | path root => Plain root
  | _ => True

end Item

/-- Whether a slot is taken. -/
def Draft.has (draft : Draft) : Slot → Bool
  | .verbose => draft.verbose
  | .showSuppressed => draft.showSuppressed
  | .failOnSkipped => draft.failOnSkipped
  | .format => draft.format.isSome
  | .config => draft.config.isSome
  | .jobs => draft.jobs.isSome
  | .output => draft.output.isSome
  | .path => draft.path.isSome
  | .help => false
  | .version => false

theorem Draft.has_fill (draft : Draft) (item : Item) (slot : Slot) :
    (item.fill draft).has slot = (draft.has slot || item.slot == slot) := by
  cases item <;> cases slot <;> simp [Item.fill, has, Item.slot]

/-- Items for different slots can be taken in either order. -/
theorem Item.fill_comm {first second : Item} (different : first.slot ≠ second.slot)
    (draft : Draft) : second.fill (first.fill draft) = first.fill (second.fill draft) := by
  cases first <;> cases second <;> first | rfl | exact absurd rfl different

/-! ## Values -/

theorem toList_toString (count : Nat) : (toString count).toList = Nat.toDigits 10 count := by
  rw [Nat.toString_eq_repr, Nat.toList_repr]

/-- A number starts with a digit. -/
theorem exists_digit_toString (count : Nat) :
    ∃ digit rest, (toString count).toList = digit :: rest ∧ digit.isDigit = true := by
  rw [toList_toString]
  cases written : Nat.toDigits 10 count with
  | nil => exact absurd written Nat.toDigits_ne_nil
  | cons digit rest =>
      refine ⟨digit, rest, rfl, Nat.isDigit_of_mem_toDigits (b := 10) (n := count) ?_ ?_ ?_⟩
      · decide
      · decide
      · rw [written]
        exact List.mem_cons_self

theorem plain_toString (count : Nat) : Plain (toString count) := by
  obtain ⟨digit, rest, written, isDigit⟩ := exists_digit_toString count
  constructor
  · intro empty
    rw [empty] at written
    cases written
  · rw [written]
    rintro ⟨⟩
    exact absurd isDigit (by decide)
  · rw [written]
    rintro ⟨⟩
    exact absurd isDigit (by decide)

/-- A number of jobs is read from its digits. -/
theorem jobs?_toString {count : Nat} (small : count < UInt64.size) :
    jobs? (toString count).toList = some count := by
  obtain ⟨digit, rest, written, isDigit⟩ := exists_digit_toString count
  have unsigned : digit ≠ '+' := by
    rintro rfl
    exact absurd isDigit (by decide)
  have digits : (toString count).toList.all Char.isDigit = true := by
    rw [toList_toString, List.all_eq_true]
    intro c member
    exact Nat.isDigit_of_mem_toDigits (by decide) (by decide) member
  have value : (toString count).toList.foldl
      (fun known c => known * 10 + (c.toNat - 48)) 0 = count := by
    have read : Nat.ofDigitChars 10 (Nat.toDigits 10 count) 0 = count :=
      Nat.ofDigitChars_ten_toDigits
    rw [toList_toString]
    simp only [Nat.ofDigitChars, Nat.mul_comm 10] at read
    exact read
  unfold jobs?
  rw [written] at digits value ⊢
  simp [unsigned, digits, value, small]

theorem once_of_free {α : Type} {taken : Bool} {value : Except UsageError α}
    (free : taken = false) : once taken value = value := by
  rw [once, free]
  rfl

theorem once_path {taken : Bool} {text : String} (free : taken = false) (plain : Plain text)
    (put : String → Draft) : once taken ((pathValue text).map put) = .ok (put text) := by
  rw [once_of_free free]
  simp [pathValue, plain.nonempty, Except.map]

/-! ## Names of options -/

theorem Level.ofLong?_long (level : Level) :
    ∀ slot ∈ level.options, level.ofLong? slot.long.toList = some slot := by
  cases level <;> decide +kernel

theorem Level.ofLetter?_letter (level : Level) :
    ∀ slot ∈ level.options, ∀ letter ∈ slot.letter?, level.ofLetter? letter = some slot := by
  cases level <;> simp [options, ofLetter?, Slot.letter?]

theorem Level.long_ne_nil (level : Level) : ∀ slot ∈ level.options, slot.long.toList ≠ [] := by
  cases level <;> simp [options, Slot.long]

theorem Level.path_notMem_options (level : Level) : .path ∉ level.options := by
  cases level <;> simp [options]

theorem Slot.long_ne_equals (slot : Slot) : ∀ c ∈ slot.long.toList, (c != '=') = true := by
  cases slot <;> simp [long]

theorem Slot.letter_ne_hyphen (slot : Slot) : ∀ letter ∈ slot.letter?, letter ≠ '-' := by
  cases slot <;> simp [letter?]

namespace Progress

variable {level : Level} {slot : Slot}

theorem shape_long {argument : String} {text : List Char}
    (written : argument.toList = '-' :: '-' :: text) (nonempty : text ≠ []) :
    shape argument = .long text := by
  unfold shape
  rw [written]
  cases text with
  | nil => exact absurd rfl nonempty
  | cons first rest => rfl

theorem shape_letters {argument : String} {letter : Char} {rest : List Char}
    (written : argument.toList = '-' :: letter :: rest) (noHyphen : letter ≠ '-') :
    shape argument = .letters (letter :: rest) := by
  unfold shape
  rw [written]
  split <;> simp_all

theorem shape_word {argument : String} (noHyphen : argument.toList.head? ≠ some '-') :
    shape argument = .word := by
  unfold shape
  split <;> simp_all

theorem takeLong_long (progress : Progress) (offered : slot ∈ level.options) :
    progress.takeLong level slot.long.toList =
      if slot.takesValue then progress.expectValue slot else progress.takeFlag slot := by
  have name : slot.long.toList.takeWhile (· != '=') = slot.long.toList :=
    List.takeWhile_eq_self_iff.mpr slot.long_ne_equals
  have behind : slot.long.toList.dropWhile (· != '=') = [] :=
    List.dropWhile_eq_nil_iff.mpr slot.long_ne_equals
  simp only [takeLong, name, behind, level.ofLong?_long slot offered]

theorem takeLong_joined (progress : Progress) (offered : slot ∈ level.options)
    (takes : slot.takesValue = true) (value : List Char) :
    progress.takeLong level (slot.long.toList ++ '=' :: value) =
      progress.takeValue slot value := by
  have name : (slot.long.toList ++ '=' :: value).takeWhile (· != '=') = slot.long.toList := by
    rw [List.takeWhile_append_of_pos slot.long_ne_equals]
    exact List.append_nil _
  have behind : (slot.long.toList ++ '=' :: value).dropWhile (· != '=') = '=' :: value := by
    rw [List.dropWhile_append_of_pos slot.long_ne_equals]
    rfl
  simp only [takeLong, name, behind, level.ofLong?_long slot offered, takes, if_true]

end Progress

/-! ## Reading an item -/

/-- The progress with another draft and nothing pending. -/
def Progress.holding (progress : Progress) (draft : Draft) : Progress :=
  { progress with draft := draft, pending := none }

/-- The progress with another draft and a slot whose value has come, or comes next. -/
def Progress.awaiting (progress : Progress) (draft : Draft) (slot : Slot)
    (value : Option String) : Progress :=
  { progress with draft := draft, pending := some (slot, value) }

/-- What is known once the value that is pending is looked at. -/
structure Reached (progress : Progress) (draft : Draft) : Prop where
  settled : progress.settle = .ok (progress.holding draft)
  hasPath : progress.hasPath = draft.has .path
  untrailed : progress.trailing = false

/-- Arguments lead from one progress to another, whatever follows them. -/
def Leads (level : Level) (progress : Progress) (arguments : List String) (after : Progress) :
    Prop :=
  ∀ rest, readLevel level progress (arguments ++ rest) = readLevel level after rest

namespace Leads

variable {level : Level} {progress between after : Progress}

theorem one {argument : String} (taken : progress.take level argument = .ok after) :
    Leads level progress [argument] after := by
  intro rest
  rw [List.singleton_append, readLevel, taken]

theorem trans {first second : List String} (one : Leads level progress first between)
    (two : Leads level between second after) : Leads level progress (first ++ second) after := by
  intro rest
  rw [List.append_assoc, one, two]

theorem two {first second : String} (one : progress.take level first = .ok between)
    (two : between.take level second = .ok after) :
    Leads level progress [first, second] after :=
  (Leads.one one).trans (Leads.one two)

end Leads

namespace Reached

variable {level : Level} {slot : Slot} {progress : Progress} {draft next : Draft}
  {value : String} {letter : Char}

theorem start : Reached {} {} := ⟨rfl, rfl, rfl⟩

theorem holding (reached : Reached progress draft) (path : next.has .path = draft.has .path) :
    Reached (progress.holding next) next :=
  ⟨rfl, reached.hasPath.trans path.symm, reached.untrailed⟩

/-- A value that is pending counts as taken if it can be. -/
theorem awaiting (reached : Reached progress draft) (path : next.has .path = draft.has .path)
    (set : draft.setValue slot value = .ok next) :
    Reached (progress.awaiting draft slot (some value)) next := by
  refine ⟨?_, reached.hasPath.trans path.symm, reached.untrailed⟩
  simp [Progress.settle, Progress.awaiting, Progress.holding, set, Except.map]

theorem takeFlag (reached : Reached progress draft) (set : draft.setFlag slot = .ok next) :
    progress.takeFlag slot = .ok (progress.holding next) := by
  unfold Progress.takeFlag
  rw [reached.settled]
  simp only [bind, Except.bind, Progress.holding, set]
  rfl

theorem takeValue (reached : Reached progress draft)
    (set : draft.setValue slot value = .ok next) :
    progress.takeValue slot value.toList = .ok (progress.holding next) := by
  unfold Progress.takeValue
  rw [reached.settled]
  simp only [bind, Except.bind, Progress.holding, String.ofList_toList, set]
  rfl

theorem expectValue (reached : Reached progress draft) :
    progress.expectValue slot = .ok (progress.awaiting draft slot none) := by
  unfold Progress.expectValue
  rw [reached.settled]
  rfl

theorem take_of_long (reached : Reached progress draft) {argument : String} {text : List Char}
    (written : argument.toList = '-' :: '-' :: text) (nonempty : text ≠ []) :
    progress.take level argument = progress.takeLong level text := by
  simp only [Progress.take, reached.untrailed, Progress.shape_long written nonempty,
    Bool.false_eq_true, if_false]

theorem take_of_letters (reached : Reached progress draft) {argument : String}
    {rest : List Char} (written : argument.toList = '-' :: letter :: rest)
    (noHyphen : letter ≠ '-') :
    progress.take level argument = progress.takeLetters level (letter :: rest) := by
  simp only [Progress.take, reached.untrailed, Progress.shape_letters written noHyphen,
    Bool.false_eq_true, if_false]

theorem take_longText (reached : Reached progress draft) (offered : slot ∈ level.options) :
    progress.take level slot.longText =
      if slot.takesValue then progress.expectValue slot else progress.takeFlag slot := by
  rw [← Progress.takeLong_long progress offered]
  refine reached.take_of_long ?_ (level.long_ne_nil slot offered)
  rw [Slot.longText, String.toList_append]
  rfl

theorem take_longJoined (reached : Reached progress draft) (offered : slot ∈ level.options)
    (takes : slot.takesValue = true) :
    progress.take level (slot.longText ++ "=" ++ value) =
      progress.takeValue slot value.toList := by
  rw [← Progress.takeLong_joined progress offered takes]
  refine reached.take_of_long ?_ (List.append_ne_nil_of_right_ne_nil _ (List.cons_ne_nil _ _))
  simp only [Slot.longText, String.toList_append, List.append_assoc]
  rfl

theorem toList_letterText (named : slot.letter? = some letter) :
    slot.letterText.toList = ['-', letter] := by
  simp [Slot.letterText, named]

theorem take_letterText (reached : Reached progress draft) (offered : slot ∈ level.options)
    (named : slot.letter? = some letter) :
    progress.take level slot.letterText =
      if slot.takesValue then progress.expectValue slot else progress.takeFlag slot := by
  rw [reached.take_of_letters (toList_letterText named) (slot.letter_ne_hyphen letter named)]
  simp only [Progress.takeLetters, level.ofLetter?_letter slot offered letter named]
  cases progress.takeFlag slot <;> rfl

theorem take_letterAttached (reached : Reached progress draft) (offered : slot ∈ level.options)
    (named : slot.letter? = some letter) (takes : slot.takesValue = true) (plain : Plain value) :
    progress.take level (slot.letterText ++ value) = progress.takeValue slot value.toList := by
  have written : (slot.letterText ++ value).toList = '-' :: letter :: value.toList := by
    rw [String.toList_append, toList_letterText named]
    rfl
  rw [reached.take_of_letters written (slot.letter_ne_hyphen letter named)]
  simp only [Progress.takeLetters, level.ofLetter?_letter slot offered letter named, takes,
    if_true]
  split
  · next empty => exact absurd (String.toList_eq_nil_iff.mp empty) plain.nonempty
  · next rest joined => exact absurd (by rw [joined]; rfl) plain.noEquals
  · rfl

theorem take_letterJoined (reached : Reached progress draft) (offered : slot ∈ level.options)
    (named : slot.letter? = some letter) (takes : slot.takesValue = true) :
    progress.take level (slot.letterText ++ "=" ++ value) =
      progress.takeValue slot value.toList := by
  have written : (slot.letterText ++ "=" ++ value).toList =
      '-' :: letter :: '=' :: value.toList := by
    rw [String.toList_append, String.toList_append, toList_letterText named]
    rfl
  rw [reached.take_of_letters written (slot.letter_ne_hyphen letter named)]
  simp only [Progress.takeLetters, level.ofLetter?_letter slot offered letter named, takes,
    if_true]

/-- A value that comes as an argument of its own. -/
theorem take_value (reached : Reached progress draft) (plain : Plain value) :
    (progress.awaiting draft slot none).take level value =
      .ok (progress.awaiting draft slot (some value)) := by
  simp [Progress.take, Progress.awaiting, reached.untrailed, Progress.shape_word plain.noHyphen]

/-- Nothing more is expected for the value that is pending. -/
theorem take_word (reached : Reached progress draft) (plain : Plain value) :
    progress.take level value = progress.takeWord level value := by
  simp only [Progress.take, reached.untrailed, Progress.shape_word plain.noHyphen,
    Bool.false_eq_true, if_false]
  split
  · next slot missing =>
      have settled := reached.settled
      simp [Progress.settle, missing] at settled
  · rfl

/-- The path is taken where no path has come. -/
theorem take_path (reached : Reached progress draft) (plain : Plain value)
    (free : draft.has .path = false) :
    progress.take .check value =
      .ok { progress.awaiting draft .path (some value) with hasPath := true } := by
  have first : progress.hasPath = false := reached.hasPath.trans free
  rw [reached.take_word plain, Progress.takeWord, reached.settled, first]
  rfl

/-- An option with a value is read in every spelling. -/
theorem option (reached : Reached progress draft) (offered : slot ∈ level.options)
    (named : slot.letter? = some letter) (takes : slot.takesValue = true) (plain : Plain value)
    (set : draft.setValue slot value = .ok next) (path : next.has .path = draft.has .path)
    (spelling : Spelling) :
    ∃ after, Leads level progress (spelling.arguments slot value) after ∧ Reached after next := by
  cases spelling with
  | longApart =>
      refine ⟨_, .two ?_ (reached.take_value plain), reached.awaiting path set⟩
      rw [reached.take_longText offered, takes]
      exact reached.expectValue
  | longJoined =>
      refine ⟨_, .one ?_, reached.holding path⟩
      rw [reached.take_longJoined offered takes]
      exact reached.takeValue set
  | letterApart =>
      refine ⟨_, .two ?_ (reached.take_value plain), reached.awaiting path set⟩
      rw [reached.take_letterText offered named, takes]
      exact reached.expectValue
  | letterAttached =>
      refine ⟨_, .one ?_, reached.holding path⟩
      rw [reached.take_letterAttached offered named takes plain]
      exact reached.takeValue set
  | letterJoined =>
      refine ⟨_, .one ?_, reached.holding path⟩
      rw [reached.take_letterJoined offered named takes]
      exact reached.takeValue set

theorem flag (reached : Reached progress draft) (offered : slot ∈ level.options)
    (takesNone : slot.takesValue = false) (set : draft.setFlag slot = .ok next)
    (path : next.has .path = draft.has .path) :
    ∃ after, Leads level progress [slot.longText] after ∧ Reached after next := by
  refine ⟨_, .one ?_, reached.holding path⟩
  rw [reached.take_longText offered, takesNone]
  exact reached.takeFlag set

end Reached

/-- Whether a level has a slot: it has its options, and a check has a path. -/
def Level.Offers (level : Level) (slot : Slot) : Prop :=
  slot ∈ level.options ∨ level = .check ∧ slot = .path

/-- **An item is read as what it says,** whatever was read before it. -/
theorem Reached.item {level : Level} {progress : Progress} {draft : Draft}
    (reached : Reached progress draft) (item : Item) (sound : item.Sound)
    (offered : level.Offers item.slot) (free : draft.has item.slot = false) :
    ∃ after, Leads level progress item.arguments after ∧ Reached after (item.fill draft) := by
  have listed (notPath : item.slot ≠ .path) : item.slot ∈ level.options :=
    offered.resolve_right fun isPath => notPath isPath.2
  cases item with
  | verbose byLetter =>
      have set : draft.setFlag .verbose = .ok (Item.fill draft (.verbose byLetter)) :=
        once_of_free free
      refine ⟨_, .one ?_, reached.holding rfl⟩
      cases byLetter with
      | false => exact (reached.take_longText (listed nofun)).trans (reached.takeFlag set)
      | true =>
          exact (reached.take_letterText (listed nofun) rfl).trans (reached.takeFlag set)
  | showSuppressed => exact reached.flag (listed nofun) rfl (once_of_free free) rfl
  | failOnSkipped => exact reached.flag (listed nofun) rfl (once_of_free free) rfl
  | format spelling name =>
      exact reached.option (listed nofun) rfl rfl sound (once_of_free free) rfl spelling
  | config spelling file =>
      have set : draft.setValue .config file = .ok (Item.fill draft (.config spelling file)) :=
        once_path free sound _
      exact reached.option (listed nofun) rfl rfl sound set rfl spelling
  | jobs spelling count =>
      have set : draft.setValue .jobs (toString count) =
          .ok (Item.fill draft (.jobs spelling count)) := by
        refine (once_of_free free).trans ?_
        rw [jobs?_toString sound]
        rfl
      exact reached.option (listed nofun) rfl rfl (plain_toString count) set rfl spelling
  | output spelling file =>
      have set : draft.setValue .output file = .ok (Item.fill draft (.output spelling file)) :=
        once_path free sound _
      exact reached.option (listed nofun) rfl rfl sound set rfl spelling
  | path root =>
      have set : draft.setValue .path root = .ok (Item.fill draft (.path root)) :=
        once_path free sound _
      obtain ⟨rfl, -⟩ : level = .check ∧ Slot.path = .path :=
        offered.resolve_left level.path_notMem_options
      refine ⟨_, .one (reached.take_path sound free), ?_, rfl, reached.untrailed⟩
      simp [Progress.settle, Progress.awaiting, Progress.holding, set, Except.map]

end TimeoutAudit.CommandLine
