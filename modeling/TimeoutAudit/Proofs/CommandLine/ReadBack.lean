import Mathlib.Data.List.Nodup
import Mathlib.Data.List.Perm.Basic
import TimeoutAudit.Proofs.CommandLine.Items

/-!
# Command lines are read back

A list of items in which no slot comes twice is read to its end (`CommandLine.Reached.items`), and
what is known then does not depend on the order of the items (`CommandLine.foldl_fill_perm`).

`CommandLine.Writes` says which lines write an invocation: the items may come in any order and the
values in any spelling, a default may be left out, a check may go by its other name, and the log may
be asked for on either side of the command.  `CommandLine.parse_of_writes` says that every such line
is read as the invocation it writes.
-/

set_option autoImplicit false

namespace TimeoutAudit.CommandLine

/-! ## Lists of items -/

/-- Items that can stand together behind a command. -/
structure Together (level : Level) (items : List Item) : Prop where
  sound : ∀ item ∈ items, item.Sound
  offered : ∀ item ∈ items, level.Offers item.slot
  distinct : (items.map Item.slot).Nodup

theorem Together.perm {level : Level} {items other : List Item} (together : Together level items)
    (ordered : other.Perm items) : Together level other where
  sound item member := together.sound item (ordered.mem_iff.mp member)
  offered item member := together.offered item (ordered.mem_iff.mp member)
  distinct := (ordered.map Item.slot).nodup_iff.mpr together.distinct

/-- **Items are read to the end** if none of their slots is taken yet. -/
theorem Reached.items {level : Level} {items : List Item} (together : Together level items)
    {progress : Progress} {draft : Draft} (reached : Reached progress draft)
    (free : ∀ item ∈ items, draft.has item.slot = false) :
    readLevel level progress (items.flatMap Item.arguments) =
      .ok (items.foldl Item.fill draft) := by
  obtain ⟨sound, offered, distinct⟩ := together
  induction items generalizing progress draft with
  | nil =>
      rw [List.flatMap_nil, readLevel, reached.settled]
      rfl
  | cons first rest ih =>
      obtain ⟨unlike, distinct⟩ := List.nodup_cons.mp distinct
      obtain ⟨⟨firstSound, sound⟩, firstOffered, offered⟩ :=
        And.intro (List.forall_mem_cons.mp sound) (List.forall_mem_cons.mp offered)
      obtain ⟨firstFree, free⟩ := List.forall_mem_cons.mp free
      obtain ⟨after, leads, reached⟩ := reached.item first firstSound firstOffered firstFree
      rw [List.flatMap_cons, leads, List.foldl_cons]
      refine ih reached (fun item member => ?_) sound offered distinct
      have other : first.slot ≠ item.slot := fun same =>
        unlike (List.mem_map.mpr ⟨item, member, same.symm⟩)
      rw [Draft.has_fill, free item member, Bool.false_or]
      exact beq_false_of_ne other

/-- The order of items does not matter. -/
theorem foldl_fill_perm {items other : List Item} (ordered : other.Perm items)
    (distinct : (items.map Item.slot).Nodup) (draft : Draft) :
    other.foldl Item.fill draft = items.foldl Item.fill draft := by
  refine ordered.foldl_eq' (fun first firstMember second secondMember draft => ?_) draft
  by_cases same : first.slot = second.slot
  · rw [List.inj_on_of_nodup_map distinct (ordered.mem_iff.mp firstMember)
      (ordered.mem_iff.mp secondMember) same]
  · exact Item.fill_comm same draft

/-! ## Command lines -/

/-- Where the log is asked for, and whether by its letter. -/
inductive LogRequest where
  | missing
  | inFront (byLetter : Bool)
  | behind (byLetter : Bool)
deriving DecidableEq, Repr

namespace LogRequest

/-- Whether the log is asked for. -/
def wanted : LogRequest → Bool
  | missing => false
  | _ => true

/-- What stands in front of the command. -/
def front : LogRequest → List String
  | inFront byLetter => (Item.verbose byLetter).arguments
  | _ => []

/-- What stands among the items behind the command. -/
def items : LogRequest → List Item
  | behind byLetter => [.verbose byLetter]
  | _ => []

end LogRequest

/-- How the arguments of a check are written; what is not spelled is the default. -/
structure CheckStyle (arguments : CheckArguments) where
  format : Option Spelling
  config : Spelling
  jobs : Option Spelling
  format_default : format = none → arguments.format = "pretty"
  jobs_default : jobs = none → arguments.jobs = 1

/-- How the arguments of an init are written; what is not spelled is the default. -/
structure InitStyle (arguments : InitArguments) where
  output : Option Spelling
  output_default : output = none → arguments.output = "timeoutguard.yaml"

/-- The items for the arguments of a check, in one order. -/
def CheckStyle.items {arguments : CheckArguments} (style : CheckStyle arguments) : List Item :=
  [.path arguments.path]
    ++ (style.format.map fun spelling => Item.format spelling arguments.format).toList
    ++ (arguments.config.map (Item.config style.config)).toList
    ++ (style.jobs.map fun spelling => Item.jobs spelling arguments.jobs).toList
    ++ (if arguments.showSuppressed then [.showSuppressed] else [])
    ++ (if arguments.failOnSkipped then [.failOnSkipped] else [])

/-- The items for the arguments of an init. -/
def InitStyle.items {arguments : InitArguments} (style : InitStyle arguments) : List Item :=
  (style.output.map fun spelling => Item.output spelling arguments.output).toList

/-- Arguments whose values can be told from options. -/
structure CheckArguments.Sound (arguments : CheckArguments) : Prop where
  path : Plain arguments.path
  format : Plain arguments.format
  config : ∀ file ∈ arguments.config, Plain file
  jobs : arguments.jobs < UInt64.size

/-- The lines that write an invocation. -/
inductive Writes : Invocation → List String → Prop where
  | check (arguments : CheckArguments) (sound : arguments.Sound) (style : CheckStyle arguments)
      (log : LogRequest) (word : String) (named : word = "check" ∨ word = "analyze")
      (items : List Item) (ordered : items.Perm (style.items ++ log.items)) :
      Writes ⟨log.wanted, .check arguments⟩
        (log.front ++ word :: items.flatMap Item.arguments)
  | init (arguments : InitArguments) (sound : Plain arguments.output)
      (style : InitStyle arguments) (log : LogRequest)
      (items : List Item) (ordered : items.Perm (style.items ++ log.items)) :
      Writes ⟨log.wanted, .init arguments⟩
        (log.front ++ "init" :: items.flatMap Item.arguments)

/-! ### The items of a command -/

theorem slots_map_sublist {α : Type} {slot : Slot} (given : Option α) (write : α → Item)
    (takes : ∀ value, (write value).slot = slot) :
    ((given.map write).toList.map Item.slot).Sublist [slot] := by
  cases given with
  | none => exact List.nil_sublist _
  | some value =>
      rw [Option.map_some, Option.toList_some, List.map_singleton, takes value]

theorem slots_ite_sublist (given : Bool) (item : Item) :
    ((if given then [item] else []).map Item.slot).Sublist [item.slot] := by
  cases given with
  | false => exact List.nil_sublist _
  | true => exact List.Sublist.refl _

theorem LogRequest.slots_sublist (log : LogRequest) :
    (log.items.map Item.slot).Sublist [.verbose] := by
  cases log with
  | behind byLetter => exact List.Sublist.refl _
  | missing => exact List.nil_sublist _
  | inFront byLetter => exact List.nil_sublist _

/-- The items of a check take slots of their own. -/
theorem CheckStyle.slots_sublist {arguments : CheckArguments} (style : CheckStyle arguments)
    (log : LogRequest) :
    ((style.items ++ log.items).map Item.slot).Sublist
      [.path, .format, .config, .jobs, .showSuppressed, .failOnSkipped, .verbose] := by
  simp only [items, List.map_append]
  have path := List.Sublist.refl ([Item.path arguments.path].map Item.slot)
  have format := slots_map_sublist style.format (.format · arguments.format) fun _ => rfl
  have config := slots_map_sublist arguments.config (.config style.config) fun _ => rfl
  have jobs := slots_map_sublist style.jobs (.jobs · arguments.jobs) fun _ => rfl
  have shows := slots_ite_sublist arguments.showSuppressed .showSuppressed
  have fails := slots_ite_sublist arguments.failOnSkipped .failOnSkipped
  exact (((((path.append format).append config).append jobs).append shows).append fails).append
    log.slots_sublist

theorem mem_ite_iff {given : Bool} {item found : Item} :
    found ∈ (if given then [item] else []) ↔ given = true ∧ found = item := by
  cases given <;> simp

theorem LogRequest.sound_items (log : LogRequest) : ∀ item ∈ log.items, item.Sound := by
  cases log with
  | behind byLetter => exact List.forall_mem_singleton.mpr trivial
  | missing => exact fun _ => nofun
  | inFront byLetter => exact fun _ => nofun

theorem CheckStyle.sound_items {arguments : CheckArguments} (sound : arguments.Sound)
    (style : CheckStyle arguments) : ∀ item ∈ style.items, item.Sound := by
  intro item member
  simp only [items, List.mem_append, List.mem_singleton, Option.mem_toList,
    Option.map_eq_some_iff, mem_ite_iff] at member
  obtain ((((rfl | ⟨_, _, rfl⟩) | ⟨file, given, rfl⟩) | ⟨_, _, rfl⟩) | ⟨_, rfl⟩) | ⟨_, rfl⟩ :=
    member
  · exact sound.path
  · exact sound.format
  · exact sound.config file given
  · exact sound.jobs
  · trivial
  · trivial

/-- Items whose slots are among different ones of a level can stand together. -/
theorem Together.of_sublist {level : Level} {items : List Item} {slots : List Slot}
    (sound : ∀ item ∈ items, item.Sound) (taken : (items.map Item.slot).Sublist slots)
    (distinct : slots.Nodup) (offered : ∀ slot ∈ slots, level.Offers slot) :
    Together level items where
  sound := sound
  offered _ member := offered _ (taken.subset (List.mem_map_of_mem member))
  distinct := taken.nodup distinct

theorem CheckStyle.together {arguments : CheckArguments} (sound : arguments.Sound)
    (style : CheckStyle arguments) (log : LogRequest) :
    Together .check (style.items ++ log.items) := by
  refine .of_sublist ?_ (style.slots_sublist log) (by decide) ?_
  · exact List.forall_mem_append.mpr ⟨style.sound_items sound, log.sound_items⟩
  · unfold Level.Offers
    decide

theorem InitStyle.together {arguments : InitArguments} (sound : Plain arguments.output)
    (style : InitStyle arguments) (log : LogRequest) :
    Together .init (style.items ++ log.items) := by
  have slots : ((style.items ++ log.items).map Item.slot).Sublist [.output, .verbose] := by
    rw [List.map_append]
    exact (slots_map_sublist style.output (.output · arguments.output) fun _ => rfl).append
      log.slots_sublist
  refine .of_sublist (List.forall_mem_append.mpr ⟨?_, log.sound_items⟩) slots (by decide) ?_
  · intro item member
    obtain ⟨spelling, -, rfl⟩ := Option.map_eq_some_iff.mp (Option.mem_toList.mp member)
    exact sound
  · unfold Level.Offers
    decide

/-! ### What the items say -/

theorem foldl_fill_format (draft : Draft) (name : String) (given : Option Spelling) :
    (given.map fun spelling => Item.format spelling name).toList.foldl Item.fill draft =
      { draft with format := (given.map fun _ => name).or draft.format } := by
  cases given <;> rfl

theorem foldl_fill_config (draft : Draft) (spelling : Spelling) (given : Option String) :
    (given.map (Item.config spelling)).toList.foldl Item.fill draft =
      { draft with config := given.or draft.config } := by
  cases given <;> rfl

theorem foldl_fill_jobs (draft : Draft) (count : Nat) (given : Option Spelling) :
    (given.map fun spelling => Item.jobs spelling count).toList.foldl Item.fill draft =
      { draft with jobs := (given.map fun _ => count).or draft.jobs } := by
  cases given <;> rfl

theorem foldl_fill_output (draft : Draft) (file : String) (given : Option Spelling) :
    (given.map fun spelling => Item.output spelling file).toList.foldl Item.fill draft =
      { draft with output := (given.map fun _ => file).or draft.output } := by
  cases given <;> rfl

theorem foldl_fill_showSuppressed (draft : Draft) (given : Bool) :
    (if given then [Item.showSuppressed] else []).foldl Item.fill draft =
      { draft with showSuppressed := given || draft.showSuppressed } := by
  cases given <;> rfl

theorem foldl_fill_failOnSkipped (draft : Draft) (given : Bool) :
    (if given then [Item.failOnSkipped] else []).foldl Item.fill draft =
      { draft with failOnSkipped := given || draft.failOnSkipped } := by
  cases given <;> rfl

theorem foldl_fill_log (draft : Draft) (log : LogRequest) :
    log.items.foldl Item.fill draft =
      { draft with verbose := !log.items.isEmpty || draft.verbose } := by
  cases log <;> rfl

theorem CheckStyle.foldl_fill {arguments : CheckArguments} (style : CheckStyle arguments)
    (log : LogRequest) :
    (style.items ++ log.items).foldl Item.fill {} =
      { verbose := !log.items.isEmpty
        format := style.format.map fun _ => arguments.format
        config := arguments.config
        jobs := style.jobs.map fun _ => arguments.jobs
        showSuppressed := arguments.showSuppressed
        failOnSkipped := arguments.failOnSkipped
        path := some arguments.path } := by
  simp only [items, List.foldl_append, List.foldl_cons, List.foldl_nil, foldl_fill_format,
    foldl_fill_config, foldl_fill_jobs, foldl_fill_showSuppressed, foldl_fill_failOnSkipped,
    foldl_fill_log, Item.fill, Option.or_none, Bool.or_false]

theorem InitStyle.foldl_fill {arguments : InitArguments} (style : InitStyle arguments)
    (log : LogRequest) :
    (style.items ++ log.items).foldl Item.fill {} =
      { verbose := !log.items.isEmpty
        output := style.output.map fun _ => arguments.output } := by
  simp only [items, List.foldl_append, foldl_fill_output, foldl_fill_log, Option.or_none,
    Bool.or_false]

/-- A value that is left out is the default. -/
theorem getD_default {α : Type} {given : Option Spelling} {value default : α}
    (left : given = none → value = default) : (given.map fun _ => value).getD default = value := by
  cases given with
  | none => exact (left rfl).symm
  | some _ => rfl

/-! ### The line as a whole -/

theorem commandWord?_check {word : String} (named : word = "check" ∨ word = "analyze") :
    commandWord? word = some .check := by
  obtain rfl | rfl := named <;> decide +kernel

theorem commandWord?_init : commandWord? "init" = some .init := by decide +kernel

/-- In front of a command, the log can be asked for in two ways. -/
theorem take_verbose (byLetter : Bool) :
    Progress.take .top {} (if byLetter then Slot.verbose.letterText else Slot.verbose.longText) =
      .ok { draft := { verbose := true } } := by
  have offered : Slot.verbose ∈ Level.top.options := by decide
  cases byLetter with
  | false => exact Reached.start.take_longText offered
  | true => exact Reached.start.take_letterText offered rfl

/-- What stands in front of a command asks for the log or for nothing. -/
theorem readTop_front (log : LogRequest) {word : String} {command : CommandWord}
    (named : commandWord? word = some command) (rest : List String) :
    readTop {} (log.front ++ word :: rest) = readCommand (!log.front.isEmpty) rest command := by
  have reached (draft : Draft) :
      readTop { draft := draft } (word :: rest) = readCommand draft.verbose rest command := by
    simp only [readTop, named, Bool.false_eq_true, if_false]
  cases log with
  | missing => exact reached {}
  | behind byLetter => exact reached {}
  | inFront byLetter =>
      have noCommand : commandWord? (if byLetter then Slot.verbose.letterText
          else Slot.verbose.longText) = none := by
        cases byLetter <;> decide +kernel
      have noWord : (Progress.shape (if byLetter then Slot.verbose.letterText
          else Slot.verbose.longText) == .word) = false := by
        cases byLetter <;> decide +kernel
      simp only [LogRequest.front, Item.arguments, List.singleton_append]
      rw [readTop, noCommand]
      simp only [noWord, take_verbose, Bool.or_false, Bool.false_eq_true, if_false]
      exact reached { verbose := true }

/-- The items behind a command are read in any order. -/
theorem readLevel_items {level : Level} {items written : List Item}
    (together : Together level items) (ordered : written.Perm items) :
    readLevel level {} (written.flatMap Item.arguments) = .ok (items.foldl Item.fill {}) := by
  have free (item : Item) : Draft.has {} item.slot = false := by
    cases item <;> rfl
  rw [Reached.start.items (together.perm ordered) fun item _ => free item,
    foldl_fill_perm ordered together.distinct]

theorem LogRequest.wanted_eq (log : LogRequest) :
    (!log.front.isEmpty || !log.items.isEmpty) = log.wanted := by
  cases log <;> rfl

/-- **Command lines are read back.**  A line that writes an invocation, with its items in any order
and its values in any spelling, is read as this invocation. -/
theorem parse_of_writes {invocation : Invocation} {line : List String}
    (writes : Writes invocation line) : parse line = .ok invocation := by
  cases writes with
  | check arguments sound style log word named items ordered =>
      rw [parse, readTop_front log (commandWord?_check named), readCommand,
        readLevel_items (style.together sound log) ordered, style.foldl_fill log]
      simp only [bind, Except.bind, checkOf, getD_default style.format_default,
        getD_default style.jobs_default, log.wanted_eq]
      rfl
  | init arguments sound style log items ordered =>
      rw [parse, readTop_front log commandWord?_init, readCommand,
        readLevel_items (style.together sound log) ordered, style.foldl_fill log]
      simp only [bind, Except.bind, getD_default style.output_default, log.wanted_eq]
      rfl

/-- Arguments that are not easy to tell apart: a path that is the name of a command, a format that
does not exist, a file with an equals sign, and the greatest number of jobs. -/
def crowded : CheckArguments where
  path := "help"
  format := "f-"
  config := some "a=b.yaml"
  jobs := 18446744073709551615
  showSuppressed := true

/-- A line that writes these arguments and asks for the log. -/
def crowdedLine : List String :=
  ["analyze", "-f=f-", "--config", "a=b.yaml", "-v", "-j18446744073709551615", "help",
    "--show-suppressed"]

theorem writes_crowdedLine : Writes ⟨true, .check crowded⟩ crowdedLine := by
  have plain (text : String) (fine : text ≠ "" ∧ text.toList.head? ≠ some '-' ∧
      text.toList.head? ≠ some '=') : Plain text :=
    ⟨fine.1, fine.2.1, fine.2.2⟩
  have sound : crowded.Sound :=
    ⟨plain _ (by decide +kernel), plain _ (by decide +kernel),
      fun file given => Option.some.inj given ▸ plain _ (by decide +kernel), by decide +kernel⟩
  have writes := Writes.check crowded sound
    ⟨some .letterJoined, .longApart, some .letterAttached, nofun, nofun⟩ (.behind true) "analyze"
    (.inr rfl)
    [.format .letterJoined "f-", .config .longApart "a=b.yaml", .verbose true,
      .jobs .letterAttached 18446744073709551615, .path "help", .showSuppressed]
    (by decide +kernel)
  exact writes

theorem parse_of_writes_crowded :
    Writes ⟨true, .check crowded⟩ crowdedLine ∧ parse crowdedLine = .ok ⟨true, .check crowded⟩ :=
  ⟨writes_crowdedLine, parse_of_writes writes_crowdedLine⟩

end TimeoutAudit.CommandLine
