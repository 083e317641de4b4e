import Mathlib.Data.List.Basic
import TimeoutAudit.Proofs.Php.Literal

/-!
# What a single-quoted body denotes

A single-quoted body is cut from left to right: a backslash with a backslash or a quote behind it
is a pair, and every other character is a part by itself (`Literal.Cuts`).  Pairs may overlap in a
run of backslashes, but there is only one such cut of a body (`Literal.Cuts.unique`).  What the
body denotes is read off the cut, a character for each part (`Literal.exists_cuts`); so the body
denotes itself exactly when no pair stands in it anywhere (`Literal.unescapeSingle_eq_self_iff`).
-/

set_option autoImplicit false

namespace TimeoutAudit.Php.Literal

/-! ## Cuts of a body -/

/-- Characters that a backslash escapes between single quotes. -/
def Escapable (c : Char) : Prop := c = '\\' ∨ c = '\''

instance : DecidablePred Escapable := fun c => inferInstanceAs (Decidable (c = '\\' ∨ c = '\''))

/-- A part of a single-quoted body. -/
inductive Part where
  /-- A backslash and the character that it escapes. -/
  | pair (escaped : { c : Char // Escapable c })
  /-- A character by itself, which may be a backslash. -/
  | plain (c : Char)
deriving DecidableEq

namespace Part

/-- A part as it is written. -/
def written : Part → List Char
  | pair escaped => ['\\', escaped.val]
  | plain c => [c]

/-- The character that a part denotes. -/
def denoted : Part → Char
  | pair escaped => escaped.val
  | plain c => c

/-- Parts as they are written, one after the other. -/
def writtenAll (parts : List Part) : List Char := parts.flatMap written

@[simp] theorem writtenAll_nil : writtenAll [] = [] := rfl

@[simp] theorem writtenAll_pair (escaped : { c : Char // Escapable c }) (rest : List Part) :
    writtenAll (.pair escaped :: rest) = '\\' :: escaped.val :: writtenAll rest := rfl

@[simp] theorem writtenAll_plain (c : Char) (rest : List Part) :
    writtenAll (.plain c :: rest) = c :: writtenAll rest := rfl

end Part

open TimeoutAudit.Php.Literal.Part (writtenAll)

/-- Parts cut a body from left to right: together they are the body, and a backslash that is left
by itself has no character behind it that it would escape. -/
structure Cuts (parts : List Part) (body : List Char) : Prop where
  written : writtenAll parts = body
  leftToRight : ∀ front back, parts = front ++ .plain '\\' :: back →
    ∀ c ∈ (writtenAll back).head?, ¬ Escapable c

namespace Cuts

variable {parts others : List Part} {body rest : List Char} {c : Char}

theorem nil : Cuts [] [] where
  written := rfl
  leftToRight front back split := absurd split (by simp)

theorem tail {part : Part} (cuts : Cuts (part :: parts) body) : Cuts parts (writtenAll parts) where
  written := rfl
  leftToRight front back split := by
    subst split
    exact cuts.leftToRight (part :: front) back rfl

theorem pair (escapable : Escapable c) (cuts : Cuts parts rest) :
    Cuts (.pair ⟨c, escapable⟩ :: parts) ('\\' :: c :: rest) where
  written := by rw [Part.writtenAll_pair, cuts.written]
  leftToRight front back split := by
    cases front with
    | nil => simp at split
    | cons first front => exact cuts.leftToRight front back (List.cons.inj split).2

theorem plain (alone : c = '\\' → ∀ next ∈ rest.head?, ¬ Escapable next) (cuts : Cuts parts rest) :
    Cuts (.plain c :: parts) (c :: rest) where
  written := by rw [Part.writtenAll_plain, cuts.written]
  leftToRight front back split := by
    cases front with
    | nil =>
        obtain ⟨same, rfl⟩ := List.cons.inj split
        rw [cuts.written]
        exact alone (Part.plain.inj same)
    | cons first front => exact cuts.leftToRight front back (List.cons.inj split).2

/-- **There is one cut of a body.** -/
theorem unique (one : Cuts parts body) (two : Cuts others body) : parts = others := by
  -- By induction on one of the cuts; the first parts agree, since both start the same body.
  induction parts generalizing others body with
  | nil =>
      have empty := two.written.trans one.written.symm
      cases others with
      | nil => rfl
      | cons first others => cases first <;> simp at empty
  | cons first parts ih =>
      have same := one.written.trans two.written.symm
      cases others with
      | nil => cases first <;> simp at same
      | cons second others =>
          cases first with
          | pair escaped =>
              cases second with
              | pair escapedToo =>
                  simp only [Part.writtenAll_pair, List.cons.injEq, true_and] at same
                  obtain ⟨escapes, rests⟩ := same
                  rw [Subtype.ext escapes, ih one.tail (rests ▸ two.tail)]
              | plain c =>
                  simp only [Part.writtenAll_pair, Part.writtenAll_plain, List.cons.injEq] at same
                  obtain ⟨rfl, behind⟩ := same
                  have escapable := two.leftToRight [] others rfl escaped.val
                    (by rw [← behind]; rfl)
                  exact absurd escaped.property escapable
          | plain c =>
              cases second with
              | pair escaped =>
                  simp only [Part.writtenAll_pair, Part.writtenAll_plain, List.cons.injEq] at same
                  obtain ⟨rfl, behind⟩ := same
                  have escapable := one.leftToRight [] parts rfl escaped.val (by rw [behind]; rfl)
                  exact absurd escaped.property escapable
              | plain d =>
                  simp only [Part.writtenAll_plain, List.cons.injEq] at same
                  obtain ⟨rfl, rests⟩ := same
                  rw [ih one.tail (rests ▸ two.tail)]

end Cuts

/-! ## Reading a body -/

/-- **A body denotes what its cut says**, and there is a cut. -/
theorem exists_cuts (body : List Char) :
    ∃ parts, Cuts parts body ∧ unescapeSingle body = parts.map Part.denoted := by
  induction body using unescapeSingle.induct with
  | case1 => exact ⟨[], .nil, rfl⟩
  | case2 last => exact ⟨[.plain last], .plain (by simp) .nil, rfl⟩
  | case3 first second rest escapes ih =>
      obtain ⟨parts, cuts, denoted⟩ := ih
      simp only [Bool.and_eq_true, Bool.or_eq_true, beq_iff_eq] at escapes
      obtain ⟨rfl, escapable⟩ := escapes
      refine ⟨_, cuts.pair escapable, ?_⟩
      rw [unescapeSingle, if_pos (by simpa using escapable), denoted]
      rfl
  | case4 first second rest keeps ih =>
      obtain ⟨parts, cuts, denoted⟩ := ih
      refine ⟨.plain first :: parts, cuts.plain ?_, ?_⟩
      · rintro rfl next ahead
        obtain rfl := Option.some.inj ahead
        simpa [Escapable] using keeps
      · rw [unescapeSingle, if_neg keeps, denoted]
        rfl

/-! ## Bodies that denote themselves -/

theorem length_le_writtenAll (parts : List Part) : parts.length ≤ (writtenAll parts).length := by
  induction parts with
  | nil => exact Nat.le_refl 0
  | cons first parts ih =>
      cases first with
      | pair escaped => exact Nat.le_succ_of_le (Nat.succ_le_succ ih)
      | plain c => exact Nat.succ_le_succ ih

theorem writtenAll_of_plain {parts : List Part} (plain : ∀ escaped, .pair escaped ∉ parts) :
    writtenAll parts = parts.map Part.denoted := by
  have single : ∀ part ∈ parts, part.written = [part.denoted] := by
    intro part member
    cases part with
    | pair escaped => exact absurd member (plain escaped)
    | plain c => rfl
  rw [writtenAll, List.flatMap_congr single, List.map_eq_flatMap]

/-- Every pair is longer than what it denotes. -/
theorem writtenAll_eq_denoted_iff (parts : List Part) :
    writtenAll parts = parts.map Part.denoted ↔ ∀ escaped, .pair escaped ∉ parts := by
  refine ⟨fun same escaped member => ?_, writtenAll_of_plain⟩
  obtain ⟨front, back, rfl⟩ := List.append_of_mem member
  have lengths := congrArg List.length same
  have front_le := length_le_writtenAll front
  have back_le := length_le_writtenAll back
  simp only [writtenAll, List.flatMap_append, List.flatMap_cons, Part.written, List.length_append,
    List.length_cons, List.length_nil, List.length_map] at lengths front_le back_le
  omega

/-- Pairs are cut out wherever one stands in the body. -/
theorem Cuts.exists_pair_iff {parts : List Part} {body : List Char} (cuts : Cuts parts body) :
    (∃ escaped, .pair escaped ∈ parts) ↔ ∃ c, Escapable c ∧ ['\\', c] <:+: body := by
  constructor
  · rintro ⟨escaped, member⟩
    obtain ⟨front, back, rfl⟩ := List.append_of_mem member
    refine ⟨escaped.val, escaped.property, writtenAll front, writtenAll back, ?_⟩
    rw [← cuts.written]
    simp [writtenAll, Part.written]
  · rintro ⟨c, escapable, front, back, split⟩
    by_contra none
    -- Without pairs the parts are the characters, and then the first of the two stands alone.
    have single : parts.map Part.denoted = front ++ '\\' :: c :: back := by
      rw [← writtenAll_of_plain (not_exists.mp none), cuts.written, ← split]
      simp
    obtain ⟨before, behind, rfl, -, denoted⟩ := List.map_eq_append_iff.mp single
    obtain ⟨first, later, rfl, isBackslash, denotedLater⟩ := List.map_eq_cons_iff.mp denoted
    cases first with
    | pair escaped => exact none ⟨escaped, by simp⟩
    | plain d =>
        obtain rfl : d = '\\' := isBackslash
        refine cuts.leftToRight before later rfl c ?_ escapable
        rw [writtenAll_of_plain fun escaped member => none ⟨escaped, by simp [member]⟩,
          denotedLater]
        rfl

theorem unescapeSingle_eq_self_iff (body : List Char) :
    unescapeSingle body = body ↔ ¬ ∃ c, Escapable c ∧ ['\\', c] <:+: body := by
  obtain ⟨parts, cuts, denoted⟩ := exists_cuts body
  calc unescapeSingle body = body
      ↔ writtenAll parts = parts.map Part.denoted := by rw [denoted, cuts.written, eq_comm]
    _ ↔ ¬ ∃ escaped, .pair escaped ∈ parts := by rw [writtenAll_eq_denoted_iff, not_exists]
    _ ↔ ¬ ∃ c, Escapable c ∧ ['\\', c] <:+: body := by rw [cuts.exists_pair_iff]

/-- **Single-quoted bodies are read exactly.**  A text that is written with its backslashes and
quotes escaped is read back.  Any body has one cut from left to right, and each of its pairs denotes
its second character and every other character itself; so a body denotes itself exactly when no
pair stands in it. -/
theorem unescapeSingle_exact :
    (∀ text : String, unescapeSingle (escapeSingle text.toList) = text.toList) ∧
      ∀ body : List Char,
        (∃! parts, Cuts parts body) ∧
        (∃ parts, Cuts parts body ∧ unescapeSingle body = parts.map Part.denoted) ∧
        (unescapeSingle body = body ↔ ¬ ∃ c, Escapable c ∧ ['\\', c] <:+: body) := by
  refine ⟨fun text => unescapeSingle_escapeSingle text.toList, fun body => ⟨?_, exists_cuts body,
    unescapeSingle_eq_self_iff body⟩⟩
  obtain ⟨parts, cuts, -⟩ := exists_cuts body
  exact ⟨parts, cuts, fun others cutsToo => cutsToo.unique cuts⟩

/-- Three backslashes in front of a quote are two pairs, and one before a letter stays. -/
example : unescapeSingle "\\\\\\'\\n\\".toList = "\\'\\n\\".toList := by decide

end TimeoutAudit.Php.Literal
