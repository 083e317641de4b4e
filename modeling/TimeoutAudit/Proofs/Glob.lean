import Mathlib.Data.List.Infix
import TimeoutAudit.Glob

/-!
# What a pattern of a directory matches

Plain characters of a pattern match themselves, one after the other, and a final `/**` matches a
slash and anything behind it.  So a pattern of plain characters with `/**` at its end matches what
starts with these characters and a slash (`Glob.matchesPath_trailing_iff`).
-/

set_option autoImplicit false

namespace TimeoutAudit.Glob

theorem tokensAfter_cons (token : Token) (others : List Token) (texts : List (List UInt8)) :
    tokensAfter (token :: others) texts = tokensAfter others (token.after texts) := rfl

theorem after_literal (letter : Char) (texts : List (List UInt8)) :
    (Token.literal letter).after texts =
      texts.filterMap fun text =>
        if (String.utf8EncodeChar letter).isPrefixOf text then
          some (text.drop (String.utf8EncodeChar letter).length)
        else none := rfl

/-- A final `/**` leaves behind every rest of what follows a slash. -/
theorem after_trailing (text : List UInt8) :
    Token.trailing.after [text] =
      (if text.head? == some 0x2F then text.tail? else none).elim [] rests := by
  rw [Token.after, List.filterMap_cons, List.filterMap_nil]
  cases if text.head? == some 0x2F then text.tail? else none <;> rfl

/-- Plain characters leave behind what stands after them. -/
theorem tokensAfter_literals (front : List Char) (others : List Token) (rest : List UInt8) :
    tokensAfter (front.map .literal ++ others)
        [front.flatMap String.utf8EncodeChar ++ rest] = tokensAfter others [rest] := by
  induction front with
  | nil => rfl
  | cons letter front ih =>
      rw [List.map_cons, List.cons_append, tokensAfter_cons, after_literal, List.flatMap_cons,
        List.append_assoc]
      simp [ih]

/-- Where nothing is left to match, nothing is left behind. -/
theorem tokensAfter_literals_nil (front : List Char) (others : List Token) :
    tokensAfter (front.map .literal ++ others) [] = tokensAfter others [] := by
  induction front with
  | nil => rfl
  | cons letter front ih =>
      rw [List.map_cons, List.cons_append, tokensAfter_cons, after_literal, List.filterMap_nil, ih]

/-- Plain characters leave nothing behind where they do not stand in front. -/
theorem tokensAfter_literals_elsewhere {front : List Char} {path : List UInt8}
    (differs : ¬ front.flatMap String.utf8EncodeChar <+: path) (others : List Token) :
    tokensAfter (front.map .literal ++ others) [path] = tokensAfter others [] := by
  induction front generalizing path with
  | nil => exact absurd List.nil_prefix differs
  | cons letter front ih =>
      rw [List.map_cons, List.cons_append, tokensAfter_cons, after_literal]
      by_cases starts : String.utf8EncodeChar letter <+: path
      · obtain ⟨rest, rfl⟩ := starts
        rw [List.flatMap_cons, List.prefix_append_right_inj] at differs
        simp [ih differs]
      · simp [starts, tokensAfter_literals_nil]

theorem nil_mem_rests (text : List UInt8) : [] ∈ rests text := by
  induction text with
  | nil => exact List.mem_singleton_self _
  | cons byte others ih => exact List.mem_cons_of_mem _ ih

/-- A slash with anything behind it is matched by a final `/**`, and nothing else is. -/
theorem any_isEmpty_after_trailing (path : List UInt8) :
    (tokensAfter [.trailing] [path]).any List.isEmpty = true ↔ path.head? = some 0x2F := by
  show (Token.trailing.after [path]).any List.isEmpty = true ↔ _
  rw [after_trailing]
  cases path with
  | nil => simp
  | cons byte rest =>
      by_cases slash : byte = 0x2F
      · simpa [slash] using nil_mem_rests rest
      · simp [slash]

/-- **A pattern of plain characters with `/**` at its end** matches what starts with these
characters and a slash. -/
theorem matchesPath_trailing_iff (front : List Char) (path : OsText) :
    matchesPath (front.map .literal ++ [.trailing]) path = true ↔
      front.flatMap String.utf8EncodeChar ++ [0x2F] <+: path := by
  have whole : matchesPath (front.map .literal ++ [.trailing]) path =
      (tokensAfter (front.map .literal ++ [.trailing]) [path]).any List.isEmpty := by
    cases front <;> rfl
  rw [whole]
  by_cases starts : front.flatMap String.utf8EncodeChar <+: path
  · obtain ⟨rest, rfl⟩ := starts
    rw [tokensAfter_literals, any_isEmpty_after_trailing, List.prefix_append_right_inj,
      List.singleton_prefix_iff_head?_eq_some]
  · rw [tokensAfter_literals_elsewhere starts]
    refine iff_of_false (by decide) fun further => starts ?_
    exact (List.prefix_append _ _).trans further

end TimeoutAudit.Glob
