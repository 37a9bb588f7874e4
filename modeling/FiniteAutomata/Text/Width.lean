import FiniteAutomata.Text.ControlSequence
import FiniteAutomata.Text.CodePoint
import FiniteAutomata.Text.Lines
import FiniteAutomata.Text.Pictograph
import FiniteAutomata.Text.Syllable
import FiniteAutomata.Text.Columns

/-!
# Text/Width — how many columns a text takes on a screen

Combining marks and format characters take no column, wide characters two, all others one; but what
a character takes also depends on those before it, since some of them are drawn as one. A `Cursor`
goes along the text, back and forth as the control characters and sequences in it say, and the width
is the farthest it comes. A long text in which nothing moves the cursor is measured without its
control characters.
-/

namespace FiniteAutomata.Text

/-- The character that joins the next one to what stands before it. -/
def joiner : CodePoint := '\u200D'

/-- The character is shown by nothing but its effect. -/
def isControl (c : CodePoint) : Bool :=
  decide (c.toNat < 0x20 ∨ 0x7F ≤ c.toNat ∧ c.toNat < 0xA0)

/-- The distance between the columns at which tabs stop. -/
def tabWidth : Nat := 8

/-! ## The cursor -/

/-- **Where a cursor stands, and what it remembers of the text before it.** -/
structure Cursor where
  column : Int
  /-- The farthest it had been before the characters that are drawn as one at this place. -/
  extent : Nat
  /-- The columns given to the characters that are drawn as one at this place. -/
  cluster : Nat
  /-- The character that a sign for its form or a spacing mark would go with. -/
  base : Option CodePoint
  /-- Another character has been joined to the base. -/
  joined : Bool
  /-- The character that a skin tone would go with. -/
  last : Option CodePoint
  /-- A sign binds the next character to those before it. -/
  bound : Bool
  /-- The character before is the first half of a flag. -/
  halfFlag : Bool
  /-- How many of the next characters are not looked at. -/
  skip : Nat
deriving DecidableEq, Repr

namespace Cursor

/-- The cursor at the beginning of a line. -/
def start : Cursor := ⟨0, 0, 0, none, false, none, false, false, 0⟩

/-- The columns from the beginning of the line to the farthest that the cursor has been. -/
def width (k : Cursor) : Nat := max k.extent k.column.toNat

/-- The cursor in another column. -/
def moveTo (k : Cursor) (column : Int) : Cursor := { k with column := column, extent := k.width }

/-- The cursor so many columns further on. -/
def advance (k : Cursor) (n : Nat) : Cursor := k.moveTo (k.column + n)

/-- The cursor after the characters that are drawn as one have been given `n` columns, if they had
fewer. -/
def widen (k : Cursor) (n : Nat) : Cursor :=
  { k with column := k.column + (n - k.cluster : Nat), cluster := max n k.cluster }

/-- The cursor after a character that takes the columns of its own. A bound one is drawn into two
columns with those before it, and a spacing mark takes what room its base leaves of two. -/
def place (k : Cursor) (c : CodePoint) : Cursor :=
  match columnsOf c with
  | 0 =>
    if isBinder c then { k with bound := true }
    else if k.base.isSome && isSpacingMark c then
      { k.widen (min 2 (k.cluster + 1)) with base := none, bound := false }
    else { k with bound := false }
  | n =>
    { (if k.bound then k.widen 2 else { k.advance n with cluster := n }) with
      base := some c, joined := false, last := some c, bound := false }

/-- The cursor after a character that it looks at. The sign for the textual form makes a picture
narrow only where nothing is joined to it. -/
def look (k : Cursor) (c : CodePoint) : Cursor :=
  if c = joiner then if k.bound then k else { k with skip := 1, joined := true }
  else if c = pictorialSign ∧ k.base.isSome then
    { (if k.base.any hasPictorialForm then k.widen 2 else k) with base := none }
  else if c = textualSign ∧ k.base.isSome then
    let isNarrowed := !k.joined && k.base.any hasTextualForm
    { k with column := if isNarrowed then k.column - 1 else k.column, base := none }
  else if isRegionalIndicator c && k.halfFlag then { k with last := some c }
  else if isSkinTone c && k.last.any isPicture then k
  else k.place c

/-- **The cursor after a character that is shown.** -/
def pass (k : Cursor) (c : CodePoint) : Cursor :=
  { (if k.skip = 0 then k.look c else { k with skip := k.skip - 1 }) with
    halfFlag := isRegionalIndicator c && !k.halfFlag }

end Cursor

/-- The width of a text without control characters. -/
def shownWidth (s : Text) : Nat := (s.foldl Cursor.pass .start).width

/-! ## Texts in a size of their own -/

/-- The value of a setting, the last one that is an integer, brought between two bounds; the
fallback if there is none. -/
def setting (key : CodePoint) (low high fallback : Nat) (settings : Text) : Nat :=
  let values := (splitAt ':' settings).filterMap fun part =>
    if part.take 2 = [key, '='] then readInteger (part.drop 2) else none
  match values.getLast? with
  | some n => max low (min high n.toNat)
  | none => fallback

/-- The columns that a text takes in a size of its own: as many as the settings say, or as many as
the text takes, times the scale. -/
def sizedWidth (settings text : Text) : Nat :=
  let scale := setting 's' 1 7 1 settings
  match setting 'w' 0 7 0 settings with
  | 0 => if text.any fun c => c != '\x00' && isControl c then 0 else scale * shownWidth text
  | n => scale * n

/-! ## Steering -/

namespace Cursor

/-- The cursor after a control sequence. -/
def obey (k : Cursor) : ControlSequence → Cursor
  | .plain => k
  | .toColumn n => k.moveTo (n - 1)
  | .right n => k.advance n
  | .left n => k.moveTo (max 0 (k.column - n))
  | .sized settings text => k.advance (sizedWidth settings text)

/-- The cursor after a control character, which the rest of the text follows. -/
def steer (k : Cursor) (c : CodePoint) (rest : Text) : Cursor :=
  let k := { k with cluster := 0, base := none, last := none, halfFlag := false }
  if c = '\t' then k.moveTo (k.column + (tabWidth - k.column % tabWidth))
  else if c = '\x08' then if 0 < k.column then k.moveTo (k.column - 1) else k
  else if c = '\r' then k.moveTo 0
  else if c = escapeCharacter then
    match ControlSequence.read? rest with
    | some (q, after) => { k.obey q with skip := rest.length - after.length }
    | none => k
  else k

/-- **The cursor after a character**, which the rest of the text follows. -/
def step (k : Cursor) (c : CodePoint) (rest : Text) : Cursor :=
  if k.skip = 0 ∧ isControl c then k.steer c rest else k.pass c

/-- The cursor after a text. -/
def follow : Cursor → Text → Cursor
  | k, [] => k
  | k, c :: rest => follow (k.step c rest) rest

end Cursor

/-! ## Width -/

/-- Something in the text moves the cursor other than by being shown. -/
def movesCursor : Text → Bool
  | [] => false
  | c :: rest =>
    c == '\x08' || c == '\t' || c == '\r'
      || (c == escapeCharacter && match ControlSequence.read? rest with
        | some (.plain, _) | none => false
        | some _ => true)
      || movesCursor rest

/-- The text without its control sequences, at most so many of which are taken out. -/
def withoutSequences : Nat → Text → Text
  | 0, s => s
  | k + 1, s =>
    let (before, after) := (s.takeWhile (· != escapeCharacter), s.dropWhile (· != escapeCharacter))
    match after with
    | [] => before
    | c :: rest =>
      match ControlSequence.after? rest with
      | some after => before ++ withoutSequences k after
      | none => before ++ c :: withoutSequences k rest

/-- The greatest length of texts that are always measured with a cursor. -/
def shortLength : Nat := 20

/-- **The number of columns a text takes.** -/
def width (s : Text) : Nat :=
  if shortLength < s.length ∧ ¬ movesCursor s then
    shownWidth ((withoutSequences s.length s).filter fun c => !isControl c)
  else (Cursor.start.follow s).width

end FiniteAutomata.Text
