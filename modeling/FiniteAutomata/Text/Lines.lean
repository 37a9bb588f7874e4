import FiniteAutomata.Text.CodePoint

/-!
# Text/Lines — texts taken apart

A text is split at one character that parts its pieces, or at the ends of its lines, however these
are marked. Splitting at a character loses nothing but that character (`intercalate_splitAt`).
-/

namespace FiniteAutomata.Text

/-- The parts of a text before, between and after the places where the character stands. -/
def splitAt (sep : CodePoint) : Text → List Text
  | [] => [[]]
  | c :: cs =>
    if c = sep then [] :: splitAt sep cs
    else match splitAt sep cs with
      | [] => [[c]]
      | l :: ls => (c :: l) :: ls

/-- There is at least one part. -/
theorem splitAt_ne_nil (sep : CodePoint) : ∀ s : Text, splitAt sep s ≠ []
  | [] => by simp [splitAt]
  | c :: cs => by
      unfold splitAt
      split
      · simp
      · split <;> simp

/-- **The parts with the character between them are the text.** -/
theorem intercalate_splitAt (sep : CodePoint) : ∀ s : Text, [sep].intercalate (splitAt sep s) = s
  | [] => by simp [splitAt]
  | c :: cs => by
      have ih := intercalate_splitAt sep cs
      have hne := splitAt_ne_nil sep cs
      unfold splitAt
      split
      · rename_i h
        subst h
        cases hp : splitAt c cs with
        | nil => exact absurd hp hne
        | cons l ls => simpa [hp, List.intercalate] using ih
      · cases hp : splitAt sep cs with
        | nil => exact absurd hp hne
        | cons l ls =>
          rw [hp] at ih
          cases ls with
          | nil => simpa [List.intercalate] using ih
          | cons m ms => simpa [List.intercalate] using ih

/-- The text before the first place where the character stands, and the text after it. -/
def breakAt (sep : CodePoint) (s : Text) : Text × Text :=
  (s.takeWhile (· != sep), (s.dropWhile (· != sep)).drop 1)

/-- The parts of a text between its line feeds; a text without one is one line. -/
def lines (s : Text) : List Text := splitAt '\n' s

/-- The character ends a line. -/
def endsLine (c : CodePoint) : Bool :=
  ('\n' ≤ c && c ≤ '\r') || ('\x1c' ≤ c && c ≤ '\x1e') || c == '\x85' || c == '\u2028'
    || c == '\u2029'

/-- The lines of a text, each of which some mark ends; a carriage return and a line feed together
are one mark. -/
def endedLines : Text → List Text
  | [] => []
  | '\r' :: '\n' :: cs => [] :: endedLines cs
  | c :: cs =>
    if endsLine c then [] :: endedLines cs
    else match endedLines cs with
      | [] => [[c]]
      | l :: ls => (c :: l) :: ls

/-- **The lines of a text, however they end.** -/
def allLines (s : Text) : List Text := endedLines s

end FiniteAutomata.Text
