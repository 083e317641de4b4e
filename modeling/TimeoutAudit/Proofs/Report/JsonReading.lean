import Mathlib.Data.List.Basic
import Mathlib.Data.List.TakeWhile
import Mathlib.Data.Nat.Digits.Lemmas
import TimeoutAudit.JsonValue

/-!
# Reading JSON back

A reader of JSON texts, as far as reports have them: blanks may stand between tokens, every escape
is understood, and control characters inside a quoted text are refused.  It reads the text of every
value back (`JsonReader.parse?_render`), so that different values have different texts.

Arrays and objects are both entries between two marks, with commas between them; `enclosed?` reads
them and `enclosedText` is how they are written.
-/

set_option autoImplicit false

namespace TimeoutAudit.JsonReader

open JsonValue (escapedChar quoted newLine textAt itemsText fieldsText)

/-! ## The reader -/

/-- Whether a character may stand between tokens. -/
def isGap (c : Char) : Bool := c == ' ' || c == '\n' || c == '\r' || c == '\t'

/-- The text without what may stand in front of a token. -/
def skipGap (text : List Char) : List Char := text.dropWhile isGap

/-- The number that hexadecimal digits stand for. -/
def hexValue (digits : List Char) : Nat :=
  digits.foldl (fun value c =>
    16 * value + if c.isDigit then c.toNat - '0'.toNat else c.toNat - 'a'.toNat + 10) 0

/-- What letters behind a backslash stand for. -/
def escapes : List (Char × Char) :=
  [('"', '"'), ('\\', '\\'), ('/', '/'), ('b', '\x08'), ('f', '\x0c'), ('n', '\n'), ('r', '\r'),
    ('t', '\t')]

/-- A quoted text behind its first quotation mark, and what follows it. -/
def quotation? : List Char → Option (List Char × List Char)
  | [] => none
  | '"' :: rest => some ([], rest)
  | '\\' :: 'u' :: a :: b :: c :: d :: rest =>
    if (hexValue [a, b, c, d]).isValidChar then
      (quotation? rest).map (Prod.map (Char.ofNat (hexValue [a, b, c, d]) :: ·) id)
    else none
  | '\\' :: letter :: rest =>
    (escapes.lookup letter).bind fun meant => (quotation? rest).map (Prod.map (meant :: ·) id)
  | c :: rest =>
    if c.toNat < 32 then none else (quotation? rest).map (Prod.map (c :: ·) id)

/-- A quoted text, and what follows it. -/
def string? (text : List Char) : Option (String × List Char) :=
  match skipGap text with
  | '"' :: rest => (quotation? rest).map (Prod.map String.ofList id)
  | _ => none

section Entries

variable {α : Type} (item? : List Char → Option (α × List Char)) (close : Char)

/-- At least one entry, commas between the entries, and the closing mark. -/
def entries? : Nat → List Char → Option (List α × List Char)
  | 0, _ => none
  | fuel + 1, text =>
    (item? text).bind fun (first, rest) =>
      match skipGap rest with
      | [] => none
      | c :: rest =>
        if c = close then some ([first], rest)
        else if c = ',' then (entries? fuel rest).map (Prod.map (first :: ·) id)
        else none

/-- Entries up to the closing mark, behind the opening one. -/
def enclosed? (fuel : Nat) (text : List Char) : Option (List α × List Char) :=
  match skipGap text with
  | [] => none
  | c :: rest => if c = close then some ([], rest) else entries? item? close fuel text

/-- A name, a colon and an entry. -/
def named? (text : List Char) : Option ((String × α) × List Char) :=
  (string? text).bind fun (name, rest) =>
    match skipGap rest with
    | ':' :: rest => (item? rest).map (Prod.map (name, ·) id)
    | _ => none

end Entries

/-- A value, and what follows it.  The fuel bounds how deep and how long the value is. -/
def value? : Nat → List Char → Option (JsonValue × List Char)
  | 0, _ => none
  | fuel + 1, text =>
    match skipGap text with
    | [] => none
    | c :: rest =>
      if c = '"' then (string? (c :: rest)).map (Prod.map .text id)
      else if c = '[' then (enclosed? (value? fuel) ']' fuel rest).map (Prod.map .array id)
      else if c = '{' then
        (enclosed? (named? (value? fuel)) '}' fuel rest).map (Prod.map .object id)
      else if c.isDigit then
        some (.number (Nat.ofDigitChars 10 ((c :: rest).takeWhile Char.isDigit) 0),
          (c :: rest).dropWhile Char.isDigit)
      else none

/-- The value of a text that holds nothing else. -/
def parse? (text : String) : Option JsonValue :=
  (value? text.length text.toList).bind fun (value, rest) =>
    if rest.all isGap then some value else none

/-! ## Quoted texts -/

theorem skipGap_append {gap : List Char} (blank : gap.all isGap = true) (rest : List Char) :
    skipGap (gap ++ rest) = skipGap rest :=
  List.dropWhile_append_of_pos (List.all_eq_true.mp blank)

theorem skipGap_cons {c : Char} (solid : isGap c = false) (rest : List Char) :
    skipGap (c :: rest) = c :: rest :=
  List.dropWhile_cons_of_neg (by simp [solid])

/-- The digits of a control character are those of its number. -/
theorem hexValue_digits : ∀ code < 32,
    ∃ a b c d, List.replicate (4 - (Nat.toDigits 16 code).length) '0' ++ Nat.toDigits 16 code =
      [a, b, c, d] ∧ hexValue [a, b, c, d] = code := by
  intro code small
  have padded : ∀ code < 32,
      let digits := List.replicate (4 - (Nat.toDigits 16 code).length) '0' ++ Nat.toDigits 16 code
      digits.length = 4 ∧ hexValue digits = code := by decide +kernel
  obtain ⟨four, value⟩ := padded code small
  obtain ⟨a, b, c, d, digits⟩ := List.length_eq_four.mp four
  exact ⟨a, b, c, d, digits, by rw [← digits]; exact value⟩

/-- **An escaped character is read as itself.** -/
theorem quotation?_escapedChar (c : Char) (rest : List Char) :
    quotation? (escapedChar c ++ rest) =
      (quotation? rest).map (Prod.map (c :: ·) id) := by
  unfold escapedChar
  split
  all_goals try rfl
  next notQuote notBackslash _ _ _ _ _ =>
    split
    · next control =>
        obtain ⟨a, b, u, d, digits, value⟩ := hexValue_digits c.toNat control
        have valid : c.toNat.isValidChar := .inl (by omega)
        simp only [List.append_assoc, List.cons_append, List.nil_append]
        rw [← List.append_assoc, digits]
        simp only [List.cons_append, List.nil_append, quotation?, value, if_pos valid,
          Char.ofNat_toNat]
    · next visible =>
        rw [List.singleton_append, quotation?, if_neg visible]
        · rintro rfl
          exact notQuote rfl
        · rintro a b u d others rfl
          exact absurd rfl notBackslash
        · rintro letter others rfl
          exact absurd rfl notBackslash

theorem quotation?_append (text rest : List Char) :
    quotation? (text.flatMap escapedChar ++ '"' :: rest) = some (text, rest) := by
  induction text with
  | nil => rfl
  | cons c text ih =>
      rw [List.flatMap_cons, List.append_assoc, quotation?_escapedChar, ih]
      rfl

theorem string?_quoted {gap : List Char} (blank : gap.all isGap = true) (text : String)
    (rest : List Char) : string? (gap ++ (quoted text ++ rest)) = some (text, rest) := by
  rw [string?, skipGap_append blank, quoted, List.cons_append, List.cons_append,
    skipGap_cons (by decide)]
  simp [quotation?_append]

/-! ## Entries between marks -/

/-- Entries as they are written at a level, each on lines of its own, with the closing mark. -/
def enclosedText {α : Type} (level : Nat) (write : α → List Char) (close : Char) :
    List α → List Char
  | [] => [close]
  | first :: others =>
    newLine (level + 1) ++ (write first ++
      (others.flatMap (fun entry => ',' :: (newLine (level + 1) ++ write entry)) ++
        (newLine level ++ [close])))

theorem newLine_gap (level : Nat) : (newLine level).all isGap = true := by
  simp [newLine, isGap]

/-- Text that does not continue a number. -/
def Follows (rest : List Char) : Prop := ∀ c ∈ rest.head?, c.isDigit = false

section Entries

variable {α : Type} {item? : List Char → Option (α × List Char)} {write : α → List Char}
  {close : Char} {level : Nat}

/-- An entry is read where it is written, on a line of its own. -/
def ReadsBack (item? : List Char → Option (α × List Char)) (level : Nat) (write : α → List Char)
    (entry : α) : Prop :=
  ∀ rest, Follows rest → item? (newLine level ++ (write entry ++ rest)) = some (entry, rest)

theorem enclosedText_cons_cons (first second : α) (others : List α) :
    enclosedText level write close (first :: second :: others) =
      newLine (level + 1) ++
        (write first ++ ',' :: enclosedText level write close (second :: others)) := by
  simp [enclosedText]

/-- Entries are read one after the other, up to the closing mark. -/
theorem entries?_written (solid : isGap close = false) (notComma : close ≠ ',')
    {first : α} {others : List α}
    (each : ∀ entry ∈ first :: others, ReadsBack item? (level + 1) write entry) {fuel : Nat}
    (enough : others.length < fuel) (rest : List Char) :
    entries? item? close fuel (enclosedText level write close (first :: others) ++ rest) =
      some (first :: others, rest) := by
  obtain ⟨fuel, rfl⟩ := Nat.exists_eq_add_of_lt (Nat.zero_lt_of_lt enough)
  rw [Nat.zero_add] at enough ⊢
  have readFirst := each first List.mem_cons_self
  induction others generalizing first fuel with
  | nil =>
      have closing := readFirst (newLine level ++ close :: rest) (by rintro c ⟨⟩; decide)
      simp only [enclosedText, List.flatMap_nil, List.nil_append, List.append_assoc,
        List.singleton_append, entries?, closing, Option.bind_some,
        skipGap_append (newLine_gap level), skipGap_cons solid, if_true]
  | cons second others ih =>
      have onward := readFirst (',' :: (enclosedText level write close (second :: others) ++ rest))
        (by rintro c ⟨⟩; decide)
      obtain ⟨fuel, rfl⟩ := Nat.exists_eq_add_of_lt
        (Nat.zero_lt_of_lt (Nat.lt_of_succ_lt_succ enough))
      rw [Nat.zero_add] at enough ⊢
      have readOthers := ih (fun entry member => each entry (List.mem_cons_of_mem _ member))
        fuel (Nat.lt_of_succ_lt_succ enough) (each second (by simp))
      rw [enclosedText_cons_cons, entries?]
      simp only [List.append_assoc, List.cons_append, onward, Option.bind_some,
        skipGap_cons (show isGap ',' = false by decide), if_neg notComma.symm, if_true, readOthers]
      rfl

/-- **What is written between two marks is read back.** -/
theorem enclosed?_written (solid : isGap close = false) (notComma : close ≠ ',')
    {entries : List α} (each : ∀ entry ∈ entries, ReadsBack item? (level + 1) write entry)
    (starts : ∀ entry ∈ entries, ∃ c rest, write entry = c :: rest ∧ isGap c = false ∧ c ≠ close)
    {fuel : Nat} (enough : entries.length ≤ fuel) (rest : List Char) :
    enclosed? item? close fuel (enclosedText level write close entries ++ rest) =
      some (entries, rest) := by
  cases entries with
  | nil => simp [enclosed?, enclosedText, skipGap_cons solid]
  | cons first others =>
      obtain ⟨c, text, begins, visible, notClose⟩ := starts first List.mem_cons_self
      obtain ⟨behind, opens⟩ :
          ∃ behind, skipGap (enclosedText level write close (first :: others) ++ rest) =
            c :: behind := by
        rw [enclosedText, List.append_assoc, skipGap_append (newLine_gap _), begins,
          List.cons_append, List.cons_append, skipGap_cons visible]
        exact ⟨_, rfl⟩
      rw [enclosed?, opens]
      simp only [if_neg notClose]
      exact entries?_written solid notComma each (by simpa using enough) rest

/-- No entry is longer than all of them, and there are no more entries than characters. -/
theorem length_le_enclosedText (entries : List α) :
    let written := enclosedText level write close entries
    entries.length ≤ written.length ∧ ∀ entry ∈ entries, (write entry).length ≤ written.length := by
  intro written
  subst written
  induction entries with
  | nil => simp [enclosedText]
  | cons first others ih =>
      cases others with
      | nil =>
          simp [enclosedText, newLine]
          omega
      | cons second others =>
          obtain ⟨count, each⟩ := ih
          rw [enclosedText_cons_cons]
          simp only [List.length_append, List.length_cons] at count each ⊢
          refine ⟨by omega, fun entry member => ?_⟩
          rcases List.mem_cons.mp member with rfl | later
          · omega
          · have := each entry later
            omega

end Entries

/-! ## Values -/

theorem itemsText_eq (level : Nat) (items : List JsonValue) :
    itemsText level items =
      items.flatMap fun item => ',' :: (newLine (level + 1) ++ item.textAt (level + 1)) := by
  induction items with
  | nil => rfl
  | cons item items ih => rw [itemsText, ih, List.flatMap_cons]; rfl

/-- A field as it is written. -/
def fieldText (level : Nat) (field : String × JsonValue) : List Char :=
  quoted field.1 ++ (':' :: ' ' :: field.2.textAt level)

theorem fieldsText_eq (level : Nat) (fields : List (String × JsonValue)) :
    fieldsText level fields =
      fields.flatMap fun field => ',' :: (newLine (level + 1) ++ fieldText (level + 1) field) := by
  induction fields with
  | nil => rfl
  | cons field fields ih =>
      rw [fieldsText, ih, List.flatMap_cons, fieldText]
      simp

theorem textAt_array (level : Nat) (items : List JsonValue) :
    (JsonValue.array items).textAt level =
      '[' :: enclosedText level (textAt (level + 1)) ']' items := by
  cases items with
  | nil => rfl
  | cons first others => simp [textAt, enclosedText, itemsText_eq]

theorem textAt_object (level : Nat) (fields : List (String × JsonValue)) :
    (JsonValue.object fields).textAt level =
      '{' :: enclosedText level (fieldText (level + 1)) '}' fields := by
  cases fields with
  | nil => rfl
  | cons first others => simp [textAt, enclosedText, fieldsText_eq, fieldText]

/-- A digit opens nothing and is no gap. -/
theorem ne_of_isDigit {c : Char} (digit : c.isDigit = true) :
    isGap c = false ∧ c ≠ ']' ∧ c ≠ '"' ∧ c ≠ '[' ∧ c ≠ '{' := by
  refine ⟨Bool.eq_false_iff.mpr fun gap => ?_, ?_, ?_, ?_, ?_⟩
  · simp only [isGap, Bool.or_eq_true, beq_iff_eq] at gap
    obtain ((rfl | rfl) | rfl) | rfl := gap <;> cases digit
  all_goals
    rintro rfl
    cases digit

/-- A number starts with a digit. -/
theorem exists_digit (number : Nat) :
    ∃ c rest, Nat.toDigits 10 number = c :: rest ∧ c.isDigit = true := by
  obtain ⟨c, rest, digits⟩ := List.exists_cons_of_ne_nil (@Nat.toDigits_ne_nil number 10)
  exact ⟨c, rest, digits, Nat.isDigit_of_mem_toDigits (by decide) (by decide)
    (digits ▸ List.mem_cons_self)⟩

theorem textAt_starts (level : Nat) (value : JsonValue) :
    ∃ c rest, value.textAt level = c :: rest ∧ isGap c = false ∧ c ≠ ']' := by
  cases value with
  | number number =>
      obtain ⟨c, rest, digits, digit⟩ := exists_digit number
      obtain ⟨solid, notClose, _⟩ := ne_of_isDigit digit
      exact ⟨c, rest, by rw [textAt, digits], solid, notClose⟩
  | text text => exact ⟨'"', _, by rw [textAt, quoted]; rfl, by decide, by decide⟩
  | array items => exact ⟨'[', _, textAt_array level items, by decide, by decide⟩
  | object fields => exact ⟨'{', _, textAt_object level fields, by decide, by decide⟩

/-- The first character of a value says what it is. -/
theorem value?_cons {c : Char} (solid : isGap c = false) (fuel : Nat) (rest : List Char) :
    value? (fuel + 1) (c :: rest) =
      if c = '"' then (string? (c :: rest)).map (Prod.map .text id)
      else if c = '[' then (enclosed? (value? fuel) ']' fuel rest).map (Prod.map .array id)
      else if c = '{' then
        (enclosed? (named? (value? fuel)) '}' fuel rest).map (Prod.map .object id)
      else if c.isDigit then
        some (.number (Nat.ofDigitChars 10 ((c :: rest).takeWhile Char.isDigit) 0),
          (c :: rest).dropWhile Char.isDigit)
      else none := by
  rw [value?, skipGap_cons solid]

theorem value?_number (fuel : Nat) (number : Nat) {rest : List Char} (follows : Follows rest) :
    value? (fuel + 1) (Nat.toDigits 10 number ++ rest) = some (.number number, rest) := by
  obtain ⟨c, others, digits, digit⟩ := exists_digit number
  obtain ⟨solid, _, notQuote, notBracket, notBrace⟩ := ne_of_isDigit digit
  have all : ∀ d ∈ Nat.toDigits 10 number, d.isDigit = true := fun d member =>
    Nat.isDigit_of_mem_toDigits (by decide) (by decide) member
  have taken : (Nat.toDigits 10 number ++ rest).takeWhile Char.isDigit =
      Nat.toDigits 10 number := by
    rw [List.takeWhile_append_of_pos all]
    cases rest with
    | nil => simp
    | cons d rest => simp [follows d rfl]
  have left : (Nat.toDigits 10 number ++ rest).dropWhile Char.isDigit = rest := by
    rw [List.dropWhile_append_of_pos all]
    cases rest with
    | nil => rfl
    | cons d rest => simp [follows d rfl]
  rw [digits, List.cons_append] at taken left ⊢
  rw [value?_cons solid]
  simp only [notQuote, notBracket, notBrace, digit, if_false, if_true, taken, left]
  rw [← digits, Nat.ofDigitChars_toDigits (by decide) (by decide)]

/-- A gap in front of a value is passed over. -/
theorem value?_append {gap : List Char} (blank : gap.all isGap = true) (fuel : Nat)
    (text : List Char) : value? fuel (gap ++ text) = value? fuel text := by
  cases fuel with
  | zero => rfl
  | succ fuel => rw [value?, value?, skipGap_append blank]

/-- A field is read back if its value is. -/
theorem named?_fieldText {fuel level : Nat} {field : String × JsonValue}
    (reads : ∀ rest, Follows rest →
      value? fuel (field.2.textAt level ++ rest) = some (field.2, rest)) :
    ReadsBack (named? (value? fuel)) level (fieldText level) field := by
  intro rest follows
  have name := string?_quoted (newLine_gap level) field.1
    (':' :: ' ' :: (field.2.textAt level ++ rest))
  have value : value? fuel (' ' :: (field.2.textAt level ++ rest)) = some (field.2, rest) := by
    rw [← List.singleton_append, value?_append (by decide), reads rest follows]
  rw [fieldText, List.append_assoc, List.cons_append, List.cons_append, named?, name,
    Option.bind_some]
  simp only [skipGap_cons (show isGap ':' = false by decide), value]
  rfl

theorem value?_quoted (fuel : Nat) (text : String) (rest : List Char) :
    value? (fuel + 1) (quoted text ++ rest) = some (.text text, rest) := by
  have read := string?_quoted (show [].all isGap = true from rfl) text rest
  rw [List.nil_append, quoted, List.cons_append, List.cons_append] at read
  rw [quoted, List.cons_append, List.cons_append, value?_cons (by decide)]
  simp only [if_true, read]
  rfl

theorem value?_array {fuel level : Nat} {items : List JsonValue}
    (each : ∀ item ∈ items, ReadsBack (value? fuel) (level + 1) (textAt (level + 1)) item)
    (enough : items.length ≤ fuel) (rest : List Char) :
    value? (fuel + 1) ((JsonValue.array items).textAt level ++ rest) =
      some (.array items, rest) := by
  have read : enclosed? (value? fuel) ']' fuel
      (enclosedText level (textAt (level + 1)) ']' items ++ rest) = some (items, rest) :=
    enclosed?_written (by decide) (by decide) each (fun item _ => textAt_starts (level + 1) item)
      enough rest
  rw [textAt_array, List.cons_append, value?_cons (by decide)]
  simp only [show '[' ≠ '"' by decide, if_false, if_true, read]
  rfl

theorem value?_object {fuel level : Nat} {fields : List (String × JsonValue)}
    (each : ∀ field ∈ fields,
      ReadsBack (named? (value? fuel)) (level + 1) (fieldText (level + 1)) field)
    (enough : fields.length ≤ fuel) (rest : List Char) :
    value? (fuel + 1) ((JsonValue.object fields).textAt level ++ rest) =
      some (.object fields, rest) := by
  have read : enclosed? (named? (value? fuel)) '}' fuel
      (enclosedText level (fieldText (level + 1)) '}' fields ++ rest) = some (fields, rest) :=
    enclosed?_written (by decide) (by decide) each
      (fun field _ => ⟨'"', _, by rw [fieldText, quoted]; rfl, by decide, by decide⟩) enough rest
  rw [textAt_object, List.cons_append, value?_cons (by decide)]
  simp only [show '{' ≠ '"' by decide, show '{' ≠ '[' by decide, if_false, if_true, read]
  rfl

/-- **The text of a value is read back,** if there is fuel for each of its characters. -/
theorem value?_textAt {fuel : Nat} (level : Nat) {value : JsonValue}
    (enough : (value.textAt level).length ≤ fuel) {rest : List Char} (follows : Follows rest) :
    value? fuel (value.textAt level ++ rest) = some (value, rest) := by
  -- The parts of a value are shorter than the value, so that less fuel is enough for them.
  induction fuel generalizing level value rest with
  | zero =>
      obtain ⟨c, _, starts, _⟩ := textAt_starts level value
      simp [starts] at enough
  | succ fuel ih =>
      cases value with
      | number number =>
          rw [textAt]
          exact value?_number fuel number follows
      | text text =>
          rw [textAt]
          exact value?_quoted fuel text rest
      | array items =>
          rw [textAt_array, List.length_cons, Nat.succ_le_succ_iff] at enough
          refine value?_array (fun item member rest follows => ?_)
            ((length_le_enclosedText items).1.trans enough) rest
          rw [value?_append (newLine_gap _)]
          exact ih (level + 1) (((length_le_enclosedText items).2 item member).trans enough) follows
      | object fields =>
          rw [textAt_object, List.length_cons, Nat.succ_le_succ_iff] at enough
          refine value?_object (fun field member => named?_fieldText fun rest follows => ?_)
            ((length_le_enclosedText fields).1.trans enough) rest
          have part : (field.2.textAt (level + 1)).length ≤
              (fieldText (level + 1) field).length := by
            simp only [fieldText, List.length_append, List.length_cons]
            omega
          refine ih (level + 1) (part.trans (le_trans ?_ enough)) follows
          exact (length_le_enclosedText fields).2 field member

/-- **The text of every value is read back,** also with blanks behind it. -/
theorem parse?_render (value : JsonValue) {gap : String} (blank : gap.toList.all isGap = true) :
    parse? (value.render ++ gap) = some value := by
  have follows : Follows gap.toList := by
    intro c first
    refine Bool.eq_false_iff.mpr fun digit => ?_
    have isGap := List.all_eq_true.mp blank c (List.mem_of_mem_head? first)
    simp [(ne_of_isDigit digit).1] at isGap
  have enough : (value.textAt 0).length ≤ (value.render ++ gap).length := by
    simp [JsonValue.render, String.length_append]
  have read := value?_textAt 0 enough follows
  rw [parse?, String.toList_append, JsonValue.render, String.toList_ofList, ← JsonValue.render,
    read, Option.bind_some]
  exact if_pos blank

end TimeoutAudit.JsonReader
