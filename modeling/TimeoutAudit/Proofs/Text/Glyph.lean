import Mathlib.Data.List.Basic
import TimeoutAudit.Proofs.Text.Bytes

/-!
# Glyphs and the bytes they were read from

Nothing is lost when bytes are cut into glyphs: the bytes of the glyphs, one after the other, are
the bytes that were read (`Glyph.encode_decode`).

A byte below `0x80` always starts a glyph of its own, also behind a character that was broken off
(`Glyph.decode_append`), and no other glyph holds such a byte.  So such a byte stands among the
bytes as often as its character among the glyphs (`Glyph.count_decode`).

Bytes that encode a text are cut into its characters (`Glyph.decode_bytes`).
-/

set_option autoImplicit false

namespace TimeoutAudit.Glyph

/-- The bytes that a glyph was read from. -/
def bytes : Glyph → List UInt8
  | .char value => String.utf8EncodeChar value
  | .broken run => run

/-- The bytes of several glyphs. -/
def encode (glyphs : List Glyph) : List UInt8 := glyphs.flatMap bytes

@[simp] theorem encode_append (first second : List Glyph) :
    encode (first ++ second) = encode first ++ encode second := List.flatMap_append

@[simp] theorem encode_cons (glyph : Glyph) (others : List Glyph) :
    encode (glyph :: others) = glyph.bytes ++ encode others := List.flatMap_cons

/-- A broken run is not empty and has none of the bytes that are characters by themselves. -/
def Sound : Glyph → Prop
  | .char _ => True
  | .broken run => run ≠ [] ∧ ∀ byte ∈ run, 0x80 ≤ byte

theorem Sound.bytes_ne_nil {glyph : Glyph} (sound : glyph.Sound) : glyph.bytes ≠ [] := by
  cases glyph with
  | char value => exact String.utf8EncodeChar_ne_nil
  | broken run => exact sound.1

/-! ## Characters of several bytes -/

theorem isContinuation_iff {byte : UInt8} :
    isContinuation byte = true ↔ 0x80 ≤ byte.toNat ∧ byte.toNat ≤ 0xBF := by
  simp [isContinuation, UInt8.le_iff_toNat_le]

theorem high_of_isContinuation (byte : UInt8) (continues : isContinuation byte = true) :
    0x80 ≤ byte.toNat :=
  (isContinuation_iff.mp continues).1

theorem followsThree_iff {first second : UInt8} :
    followsThree first second = true ↔
      0x80 ≤ second.toNat ∧ second.toNat ≤ 0xBF ∧ (first.toNat = 0xE0 → 0xA0 ≤ second.toNat) ∧
        (first.toNat = 0xED → second.toNat ≤ 0x9F) := by
  unfold followsThree
  simp only [beq_iff_eq, ← UInt8.toNat_inj]
  split_ifs <;> simp [isContinuation_iff, UInt8.le_iff_toNat_le] <;> simp at * <;> omega

theorem followsFour_iff {first second : UInt8} :
    followsFour first second = true ↔
      0x80 ≤ second.toNat ∧ second.toNat ≤ 0xBF ∧ (first.toNat = 0xF0 → 0x90 ≤ second.toNat) ∧
        (first.toNat = 0xF4 → second.toNat ≤ 0x8F) := by
  unfold followsFour
  simp only [beq_iff_eq, ← UInt8.toNat_inj]
  split_ifs <;> simp [isContinuation_iff, UInt8.le_iff_toNat_le] <;> simp at * <;> omega

theorem val_ofNat {point : Nat} (valid : point.isValidChar) :
    (Char.ofNat point).val.toNat = point := by
  rw [Char.ofNat, dif_pos valid]
  rfl

theorem bytes_one {a : UInt8} (ascii : a.toNat < 0x80) :
    bytes (.char (Char.ofNat a.toNat)) = [a] := by
  rw [bytes, String.utf8EncodeChar, val_ofNat (by unfold Nat.isValidChar; omega),
    if_pos (by omega)]
  simp

theorem bytes_two {a b : UInt8} (lower : 0xC2 ≤ a.toNat) (upper : a.toNat ≤ 0xDF)
    (second : isContinuation b = true) :
    bytes (.char (Char.ofNat (a.toNat % 0x20 * 0x40 + payload b))) = [a, b] := by
  rw [isContinuation_iff] at second
  unfold payload
  rw [bytes, String.utf8EncodeChar, val_ofNat (by unfold Nat.isValidChar; omega),
    if_neg (by omega), if_pos (by omega)]
  simp only [List.cons.injEq, and_true, ← UInt8.toNat_inj, UInt8.toNat_ofNat']
  omega

theorem bytes_three {a b c : UInt8} (lower : 0xE0 ≤ a.toNat) (upper : a.toNat ≤ 0xEF)
    (second : followsThree a b = true) (third : isContinuation c = true) :
    bytes (.char (Char.ofNat ((a.toNat % 0x10 * 0x40 + payload b) * 0x40 + payload c))) =
      [a, b, c] := by
  rw [followsThree_iff] at second
  rw [isContinuation_iff] at third
  unfold payload
  rw [bytes, String.utf8EncodeChar, val_ofNat (by unfold Nat.isValidChar; omega),
    if_neg (by omega), if_neg (by omega), if_pos (by omega)]
  simp only [List.cons.injEq, and_true, ← UInt8.toNat_inj, UInt8.toNat_ofNat']
  omega

theorem bytes_four {a b c d : UInt8} (lower : 0xF0 ≤ a.toNat) (upper : a.toNat ≤ 0xF4)
    (second : followsFour a b = true) (third : isContinuation c = true)
    (fourth : isContinuation d = true) :
    bytes (.char (Char.ofNat
      (((a.toNat % 0x08 * 0x40 + payload b) * 0x40 + payload c) * 0x40 + payload d))) =
      [a, b, c, d] := by
  rw [followsFour_iff] at second
  rw [isContinuation_iff] at third fourth
  unfold payload
  rw [bytes, String.utf8EncodeChar, val_ofNat (by unfold Nat.isValidChar; omega),
    if_neg (by omega), if_neg (by omega), if_neg (by omega)]
  simp only [List.cons.injEq, and_true, ← UInt8.toNat_inj, UInt8.toNat_ofNat']
  omega

/-! ## Reading a character -/

section Encoding

variable {a b c d : UInt8}

theorem decode_two (lower : 0xC2 ≤ a.toNat) (upper : a.toNat ≤ 0xDF)
    (second : isContinuation b = true) (rest : List UInt8) :
    decode (a :: b :: rest) =
      .char (Char.ofNat (a.toNat % 0x20 * 0x40 + payload b)) :: decode rest := by
  have notAscii : ¬ a < 0x80 := by
    rw [UInt8.lt_iff_toNat_lt]
    simp
    omega
  have lead : (0xC2 ≤ a && a ≤ 0xDF) = true := by
    simpa [UInt8.le_iff_toNat_le] using ⟨lower, upper⟩
  rw [decode.eq_def]
  simp [notAscii, lead, second]

theorem decode_three (lower : 0xE0 ≤ a.toNat) (upper : a.toNat ≤ 0xEF)
    (second : followsThree a b = true) (third : isContinuation c = true) (rest : List UInt8) :
    decode (a :: b :: c :: rest) =
      .char (Char.ofNat ((a.toNat % 0x10 * 0x40 + payload b) * 0x40 + payload c)) ::
        decode rest := by
  have notAscii : ¬ a < 0x80 := by
    rw [UInt8.lt_iff_toNat_lt]
    simp
    omega
  have notTwo : (0xC2 ≤ a && a ≤ 0xDF) = false := by
    simp [UInt8.le_iff_toNat_le]
    omega
  have lead : (0xE0 ≤ a && a ≤ 0xEF) = true := by
    simpa [UInt8.le_iff_toNat_le] using ⟨lower, upper⟩
  rw [decode.eq_def]
  simp [notAscii, notTwo, lead, second, third]

theorem decode_four (lower : 0xF0 ≤ a.toNat) (upper : a.toNat ≤ 0xF4)
    (second : followsFour a b = true) (third : isContinuation c = true)
    (fourth : isContinuation d = true) (rest : List UInt8) :
    decode (a :: b :: c :: d :: rest) =
      .char (Char.ofNat
        (((a.toNat % 0x08 * 0x40 + payload b) * 0x40 + payload c) * 0x40 + payload d)) ::
        decode rest := by
  have notAscii : ¬ a < 0x80 := by
    rw [UInt8.lt_iff_toNat_lt]
    simp
    omega
  have notTwo : (0xC2 ≤ a && a ≤ 0xDF) = false := by
    simp [UInt8.le_iff_toNat_le]
    omega
  have notThree : (0xE0 ≤ a && a ≤ 0xEF) = false := by
    simp [UInt8.le_iff_toNat_le]
    omega
  have lead : (0xF0 ≤ a && a ≤ 0xF4) = true := by
    simpa [UInt8.le_iff_toNat_le] using ⟨lower, upper⟩
  rw [decode.eq_def]
  simp [notAscii, notTwo, notThree, lead, second, third, fourth]

end Encoding

/-! ## The first glyph -/

/-- Bytes that continue no character that was begun before them. -/
def Fresh (tail : List UInt8) : Prop := ∀ byte ∈ tail.head?, byte < 0x80

theorem Fresh.nil : Fresh [] := by simp [Fresh]

/-- The next byte, if there is one, does not go on with a character. -/
def Stops (follows : UInt8 → Bool) (rest : List UInt8) : Prop :=
  ∀ byte ∈ rest.head?, follows byte = false

theorem stops_or_follows (follows : UInt8 → Bool) (rest : List UInt8) :
    Stops follows rest ∨ ∃ byte after, rest = byte :: after ∧ follows byte = true := by
  cases rest with
  | nil => exact .inl (by simp [Stops])
  | cons byte after =>
      cases next : follows byte with
      | false => exact .inl (by simpa [Stops] using next)
      | true => exact .inr ⟨byte, after, rfl, next⟩

/-- Fresh bytes behind it do not make a character go on. -/
theorem Stops.append {follows : UInt8 → Bool} {rest tail : List UInt8} (stops : Stops follows rest)
    (high : ∀ byte, follows byte = true → 0x80 ≤ byte.toNat) (fresh : Fresh tail) :
    Stops follows (rest ++ tail) := by
  cases rest with
  | cons byte after => exact stops
  | nil =>
      intro byte first
      have low : byte.toNat < 0x80 := fresh byte first
      rw [Bool.eq_false_iff]
      intro next
      have := high byte next
      omega

/-- Bytes begin with a glyph: it is read first, whatever fresh bytes come behind. -/
structure Begins (source : List UInt8) (glyph : Glyph) (rest : List UInt8) : Prop where
  split : source = glyph.bytes ++ rest
  sound : glyph.Sound
  read : ∀ tail, Fresh tail → decode (source ++ tail) = glyph :: decode (rest ++ tail)

section Lead

variable {a : UInt8} (notAscii : ¬ a < 0x80)

include notAscii

theorem sound_broken {others : List UInt8} (high : ∀ byte ∈ others, 0x80 ≤ byte.toNat) :
    Sound (.broken (a :: others)) := by
  refine ⟨List.cons_ne_nil a others, fun byte member => ?_⟩
  rcases List.mem_cons.mp member with rfl | later
  · exact UInt8.not_lt.mp notAscii
  · exact high byte later

theorem begins_of_two (lead : (0xC2 ≤ a && a ≤ 0xDF) = true) (rest : List UInt8) :
    ∃ glyph after, Begins (a :: rest) glyph after := by
  have bounds : 0xC2 ≤ a.toNat ∧ a.toNat ≤ 0xDF := by
    simpa [UInt8.le_iff_toNat_le] using lead
  have stopsAfterOne {rest : List UInt8} (stops : Stops isContinuation rest) :
      decode (a :: rest) = .broken [a] :: decode rest := by
    rw [decode.eq_def]
    cases rest with
    | nil => simp [notAscii, lead]
    | cons b after => simp [notAscii, lead, stops b rfl]
  rcases stops_or_follows isContinuation rest with stops | ⟨b, after, rfl, second⟩
  · exact ⟨.broken [a], rest, rfl, sound_broken notAscii (by simp),
      fun tail fresh => stopsAfterOne (stops.append high_of_isContinuation fresh)⟩
  · exact ⟨_, after, (congrArg (· ++ after) (bytes_two bounds.1 bounds.2 second)).symm, trivial,
      fun tail _ => decode_two bounds.1 bounds.2 second (after ++ tail)⟩

theorem begins_of_three (notTwo : (0xC2 ≤ a && a ≤ 0xDF) = false)
    (lead : (0xE0 ≤ a && a ≤ 0xEF) = true) (rest : List UInt8) :
    ∃ glyph after, Begins (a :: rest) glyph after := by
  have bounds : 0xE0 ≤ a.toNat ∧ a.toNat ≤ 0xEF := by
    simpa [UInt8.le_iff_toNat_le] using lead
  have highSecond (byte : UInt8) (next : followsThree a byte = true) : 0x80 ≤ byte.toNat :=
    (followsThree_iff.mp next).1
  have stopsAfterOne {rest : List UInt8} (stops : Stops (followsThree a) rest) :
      decode (a :: rest) = .broken [a] :: decode rest := by
    rw [decode.eq_def]
    cases rest with
    | nil => simp [notAscii, notTwo, lead]
    | cons b after => simp [notAscii, notTwo, lead, stops b rfl]
  have stopsAfterTwo {b : UInt8} {rest : List UInt8} (second : followsThree a b = true)
      (stops : Stops isContinuation rest) :
      decode (a :: b :: rest) = .broken [a, b] :: decode rest := by
    rw [decode.eq_def]
    cases rest with
    | nil => simp [notAscii, notTwo, lead, second]
    | cons c after => simp [notAscii, notTwo, lead, second, stops c rfl]
  rcases stops_or_follows (followsThree a) rest with stops | ⟨b, rest, rfl, second⟩
  · exact ⟨.broken [a], rest, rfl, sound_broken notAscii (by simp),
      fun tail fresh => stopsAfterOne (stops.append highSecond fresh)⟩
  rcases stops_or_follows isContinuation rest with stops | ⟨c, after, rfl, third⟩
  · exact ⟨.broken [a, b], rest, rfl, sound_broken notAscii (by simpa using highSecond b second),
      fun tail fresh => stopsAfterTwo second (stops.append high_of_isContinuation fresh)⟩
  · exact ⟨_, after, (congrArg (· ++ after) (bytes_three bounds.1 bounds.2 second third)).symm,
      trivial, fun tail _ => decode_three bounds.1 bounds.2 second third (after ++ tail)⟩

theorem begins_of_four (notTwo : (0xC2 ≤ a && a ≤ 0xDF) = false)
    (notThree : (0xE0 ≤ a && a ≤ 0xEF) = false) (lead : (0xF0 ≤ a && a ≤ 0xF4) = true)
    (rest : List UInt8) : ∃ glyph after, Begins (a :: rest) glyph after := by
  have bounds : 0xF0 ≤ a.toNat ∧ a.toNat ≤ 0xF4 := by
    simpa [UInt8.le_iff_toNat_le] using lead
  have highSecond (byte : UInt8) (next : followsFour a byte = true) : 0x80 ≤ byte.toNat :=
    (followsFour_iff.mp next).1
  have stopsAfterOne {rest : List UInt8} (stops : Stops (followsFour a) rest) :
      decode (a :: rest) = .broken [a] :: decode rest := by
    rw [decode.eq_def]
    cases rest with
    | nil => simp [notAscii, notTwo, notThree, lead]
    | cons b after => simp [notAscii, notTwo, notThree, lead, stops b rfl]
  have stopsAfterTwo {b : UInt8} {rest : List UInt8} (second : followsFour a b = true)
      (stops : Stops isContinuation rest) :
      decode (a :: b :: rest) = .broken [a, b] :: decode rest := by
    rw [decode.eq_def]
    cases rest with
    | nil => simp [notAscii, notTwo, notThree, lead, second]
    | cons c after => simp [notAscii, notTwo, notThree, lead, second, stops c rfl]
  have stopsAfterThree {b c : UInt8} {rest : List UInt8} (second : followsFour a b = true)
      (third : isContinuation c = true) (stops : Stops isContinuation rest) :
      decode (a :: b :: c :: rest) = .broken [a, b, c] :: decode rest := by
    rw [decode.eq_def]
    cases rest with
    | nil => simp [notAscii, notTwo, notThree, lead, second, third]
    | cons d after => simp [notAscii, notTwo, notThree, lead, second, third, stops d rfl]
  rcases stops_or_follows (followsFour a) rest with stops | ⟨b, rest, rfl, second⟩
  · exact ⟨.broken [a], rest, rfl, sound_broken notAscii (by simp),
      fun tail fresh => stopsAfterOne (stops.append highSecond fresh)⟩
  rcases stops_or_follows isContinuation rest with stops | ⟨c, rest, rfl, third⟩
  · exact ⟨.broken [a, b], rest, rfl, sound_broken notAscii (by simpa using highSecond b second),
      fun tail fresh => stopsAfterTwo second (stops.append high_of_isContinuation fresh)⟩
  rcases stops_or_follows isContinuation rest with stops | ⟨d, after, rfl, fourth⟩
  · have high : ∀ byte ∈ [b, c], 0x80 ≤ byte.toNat := by
      simpa using ⟨highSecond b second, high_of_isContinuation c third⟩
    exact ⟨.broken [a, b, c], rest, rfl, sound_broken notAscii high,
      fun tail fresh => stopsAfterThree second third (stops.append high_of_isContinuation fresh)⟩
  · exact ⟨_, after,
      (congrArg (· ++ after) (bytes_four bounds.1 bounds.2 second third fourth)).symm, trivial,
      fun tail _ => decode_four bounds.1 bounds.2 second third fourth (after ++ tail)⟩

end Lead

/-- **Bytes begin with a glyph.** -/
theorem exists_begins (a : UInt8) (rest : List UInt8) :
    ∃ glyph after, Begins (a :: rest) glyph after := by
  by_cases ascii : a < 0x80
  · exact ⟨_, rest, (congrArg (· ++ rest) (bytes_one ascii)).symm, trivial,
      fun tail _ => decode_ascii ascii (rest ++ tail)⟩
  cases two : (0xC2 ≤ a && a ≤ 0xDF : Bool) with
  | true => exact begins_of_two ascii two rest
  | false =>
      cases three : (0xE0 ≤ a && a ≤ 0xEF : Bool) with
      | true => exact begins_of_three ascii two three rest
      | false =>
          cases four : (0xF0 ≤ a && a ≤ 0xF4 : Bool) with
          | true => exact begins_of_four ascii two three four rest
          | false =>
              refine ⟨.broken [a], rest, rfl, by simpa [Sound] using ascii, fun tail _ => ?_⟩
              rw [List.cons_append, decode.eq_def]
              simp [ascii, two, three, four]

theorem Begins.decode_eq {source rest : List UInt8} {glyph : Glyph}
    (begins : Begins source glyph rest) : decode source = glyph :: decode rest := by
  simpa using begins.read [] .nil

theorem Begins.length_lt {source rest : List UInt8} {glyph : Glyph}
    (begins : Begins source glyph rest) : rest.length < source.length := by
  have positive := List.length_pos_of_ne_nil begins.sound.bytes_ne_nil
  rw [begins.split, List.length_append]
  omega

/-! ## All glyphs -/

/-- What is said of all bytes may be shown glyph by glyph. -/
theorem decode_induction {motive : List UInt8 → Prop} (nil : motive [])
    (glyph : ∀ source first rest, Begins source first rest → motive rest → motive source) :
    ∀ source, motive source
  | [] => nil
  | a :: after => by
      obtain ⟨first, rest, begins⟩ := exists_begins a after
      exact glyph _ first rest begins (decode_induction nil glyph rest)
termination_by source => source.length
decreasing_by exact begins.length_lt

/-- **Nothing is lost** when bytes are cut into glyphs. -/
theorem encode_decode (source : List UInt8) : encode (decode source) = source := by
  induction source using decode_induction with
  | nil => simp [encode]
  | glyph source first rest begins ih =>
      rw [begins.decode_eq, encode_cons, ih, begins.split]

theorem sound_of_mem_decode (source : List UInt8) {glyph : Glyph} (member : glyph ∈ decode source) :
    glyph.Sound := by
  induction source using decode_induction with
  | nil => simp at member
  | glyph source first rest begins ih =>
      rw [begins.decode_eq, List.mem_cons] at member
      rcases member with rfl | later
      · exact begins.sound
      · exact ih later

/-- **Fresh bytes are read on their own.** -/
theorem decode_append (source : List UInt8) {tail : List UInt8} (fresh : Fresh tail) :
    decode (source ++ tail) = decode source ++ decode tail := by
  induction source using decode_induction with
  | nil => simp
  | glyph source first rest begins ih =>
      rw [begins.read tail fresh, ih, begins.decode_eq, List.cons_append]

/-! ## Bytes that are characters by themselves -/

section Ascii

variable {byte : UInt8} (ascii : byte < 0x80)

include ascii

/-- Bytes are cut before and behind a byte that is a character by itself. -/
theorem decode_append_ascii (before after : List UInt8) :
    decode (before ++ byte :: after) =
      decode before ++ .char (Char.ofNat byte.toNat) :: decode after := by
  have fresh : Fresh (byte :: after) := fun first isFirst => by
    obtain rfl : byte = first := by simpa using isFirst
    exact ascii
  rw [decode_append before fresh, decode_ascii ascii]

theorem Sound.count_bytes {glyph : Glyph} (sound : glyph.Sound) :
    glyph.bytes.count byte = if glyph.is (Char.ofNat byte.toNat) then 1 else 0 := by
  cases glyph with
  | char value => simpa [is, bytes] using Text.count_utf8EncodeChar ascii value
  | broken run =>
      rw [List.count_eq_zero.mpr fun member => ?_]
      · rfl
      · exact absurd (sound.2 _ member) (UInt8.not_le.mpr ascii)

theorem countP_is_eq_count {glyphs : List Glyph} (sound : ∀ glyph ∈ glyphs, glyph.Sound) :
    glyphs.countP (is (Char.ofNat byte.toNat)) = (encode glyphs).count byte := by
  induction glyphs with
  | nil => rfl
  | cons glyph others ih =>
      rw [List.countP_cons, encode_cons, List.count_append,
        (sound glyph List.mem_cons_self).count_bytes ascii,
        ← ih fun other later => sound other (List.mem_cons_of_mem _ later), Nat.add_comm]

/-- **A byte that is a character by itself stands among the bytes as often as this character among
the glyphs.** -/
theorem count_decode (source : List UInt8) :
    (decode source).countP (is (Char.ofNat byte.toNat)) = source.count byte := by
  rw [countP_is_eq_count ascii fun glyph => sound_of_mem_decode source, encode_decode]

end Ascii

theorem lineFeeds_eq_count {glyphs : List Glyph} (sound : ∀ glyph ∈ glyphs, glyph.Sound) :
    lineFeeds glyphs = (encode glyphs).count 0x0A :=
  countP_is_eq_count (show (0x0A : UInt8) < 0x80 by decide) sound

/-! ## Texts -/

/-- **A character is read off the bytes that encode it.** -/
theorem decode_utf8EncodeChar (value : Char) (rest : List UInt8) :
    decode (String.utf8EncodeChar value ++ rest) = .char value :: decode rest := by
  have valid : value.val.toNat.isValidChar := value.valid
  have same : Char.ofNat value.val.toNat = value := Char.ofNat_toNat value
  unfold Nat.isValidChar at valid
  rw [String.utf8EncodeChar]
  generalize value.val.toNat = point at *
  have byte {number : Nat} (small : number < 0x100) : (UInt8.ofNat number).toNat = number :=
    UInt8.toNat_ofNat_of_lt' small
  -- One case for each length of an encoding.
  split_ifs with one two three
  · have ascii : UInt8.ofNat point < 0x80 := by
      rw [UInt8.lt_iff_toNat_lt, byte (by omega)]
      exact Nat.lt_succ_of_le one
    rw [List.cons_append, List.nil_append, decode_ascii ascii,
      byte (show point < 0x100 by omega), same]
  · have lead := byte (show point / 64 % 32 + 192 < 0x100 by omega)
    have second := byte (show point % 64 + 128 < 0x100 by omega)
    refine (decode_two (by omega) (by omega) (isContinuation_iff.mpr (by omega)) rest).trans ?_
    rw [payload, lead, second, ← same]
    congr 3
    omega
  · have lead := byte (show point / 4096 % 16 + 224 < 0x100 by omega)
    have second := byte (show point / 64 % 64 + 128 < 0x100 by omega)
    have third := byte (show point % 64 + 128 < 0x100 by omega)
    refine (decode_three (by omega) (by omega) (followsThree_iff.mpr (by omega))
      (isContinuation_iff.mpr (by omega)) rest).trans ?_
    rw [payload, payload, lead, second, third, ← same]
    congr 3
    omega
  · have lead := byte (show point / 262144 % 8 + 240 < 0x100 by omega)
    have second := byte (show point / 4096 % 64 + 128 < 0x100 by omega)
    have third := byte (show point / 64 % 64 + 128 < 0x100 by omega)
    have fourth := byte (show point % 64 + 128 < 0x100 by omega)
    refine (decode_four (by omega) (by omega) (followsFour_iff.mpr (by omega))
      (isContinuation_iff.mpr (by omega)) (isContinuation_iff.mpr (by omega)) rest).trans ?_
    rw [payload, payload, payload, lead, second, third, fourth, ← same]
    congr 3
    omega

/-- **A text is read back from its bytes,** whatever comes behind them. -/
theorem decode_bytes_append (text : String) (rest : List UInt8) :
    decode (Text.bytes text ++ rest) = ofString text ++ decode rest := by
  rw [Text.bytes_eq, ofString]
  induction text.toList with
  | nil => rfl
  | cons first others ih =>
      rw [List.flatMap_cons, List.append_assoc, decode_utf8EncodeChar, ih, List.map_cons,
        List.cons_append]

theorem decode_bytes (text : String) : decode (Text.bytes text) = ofString text := by
  simpa using decode_bytes_append text []

theorem mapM_char?_eq_some_iff {glyphs : List Glyph} {letters : List Char} :
    glyphs.mapM char? = some letters ↔ glyphs = letters.map .char := by
  induction glyphs generalizing letters with
  | nil => simp [eq_comm]
  | cons glyph others ih =>
      cases glyph with
      | broken run => cases letters <;> simp [char?]
      | char value =>
          rw [List.mapM_cons, char?, Option.bind_eq_bind, Option.bind_some,
            Option.bind_eq_bind, Option.bind_eq_some_iff]
          cases letters with
          | nil => simp
          | cons letter rest => simp [ih, and_comm, eq_comm]

/-- Glyphs are a text if they are its characters. -/
theorem text?_eq_some_iff {glyphs : List Glyph} {text : String} :
    text? glyphs = some text ↔ glyphs = ofString text := by
  rw [text?, Option.map_eq_some_iff, ofString]
  constructor
  · rintro ⟨letters, chars, rfl⟩
    rw [mapM_char?_eq_some_iff.mp chars, String.toList_ofList]
  · intro same
    exact ⟨text.toList, mapM_char?_eq_some_iff.mpr same, String.ofList_toList⟩

end TimeoutAudit.Glyph
