import Refute.Text.Blank

/-!
# Cutting lines

A text is a list of characters. It is cut into lines at line feeds, a line is trimmed of blanks at
both ends, and a directive is cut at the first character of a class.
-/

namespace Refute.Text

/-- The text without the blanks it starts with. -/
def trimStart (text : List Char) : List Char :=
  text.dropWhile isBlank

/-- The text without the blanks it starts and ends with. -/
def trim (text : List Char) : List Char :=
  (trimStart (trimStart text).reverse).reverse

/-- The parts before and after the first character of the class, without that character. -/
def cutAt? (cut : Char → Bool) : List Char → Option (List Char × List Char)
  | [] => none
  | c :: rest =>
    if cut c then some ([], rest)
    else (cutAt? cut rest).map fun (before, after) => (c :: before, after)

/-- The lines of a text: each ends with a line feed, which the last one may lack. -/
def lines : List Char → List (List Char)
  | [] => []
  | '\n' :: rest => [] :: lines rest
  | c :: rest =>
    match lines rest with
    | [] => [[c]]
    | first :: others => (c :: first) :: others

/-- A cut loses only the character at which it was made. -/
theorem cutAt?_eq_some {cut : Char → Bool} {text before after : List Char}
    (found : cutAt? cut text = some (before, after)) :
    ∃ c, cut c = true ∧ text = before ++ c :: after ∧ ∀ d ∈ before, cut d = false := by
  induction text generalizing before with
  | nil => simp [cutAt?] at found
  | cons c rest ih =>
    by_cases here : cut c = true
    · simp only [cutAt?, here, if_true, Option.some.injEq, Prod.mk.injEq] at found
      obtain ⟨rfl, rfl⟩ := found
      exact ⟨c, here, rfl, by simp⟩
    · simp only [cutAt?, here, Bool.false_eq_true, if_false] at found
      obtain ⟨⟨earlier, later⟩, tail, same⟩ := Option.map_eq_some_iff.1 found
      simp only [Prod.mk.injEq] at same
      obtain ⟨rfl, rfl⟩ := same
      obtain ⟨d, isCut, rfl, clean⟩ := ih tail
      refine ⟨d, isCut, rfl, ?_⟩
      intro e member
      rcases List.mem_cons.1 member with rfl | member
      · simpa using here
      · exact clean e member

end Refute.Text
