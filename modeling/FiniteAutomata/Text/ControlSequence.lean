import FiniteAutomata.Text.CodePoint

/-!
# Text/ControlSequence — sequences that steer a screen

After the escape character a text may go on with a sequence that is not shown: it sets a colour or a
title, moves the cursor along its line, or shows a text in a size of its own.
`ControlSequence.read?` takes such a sequence from what follows the escape character.
-/

namespace FiniteAutomata.Text

/-- The character that every control sequence begins with. -/
def escapeCharacter : CodePoint := '\x1b'

/-- **What a control sequence does on its line.** -/
inductive ControlSequence where
  /-- It leaves the cursor where it is. -/
  | plain
  /-- It takes the cursor to a column, counted from one. -/
  | toColumn (n : Nat)
  | right (n : Nat)
  | left (n : Nat)
  /-- It shows a text in the size that the settings say. -/
  | sized (settings text : Text)
deriving DecidableEq, Repr

namespace ControlSequence

/-- The character lies between two others. -/
def between (low high c : CodePoint) : Bool := low ≤ c && c ≤ high

/-- The character stands inside a string, which the bell or the escape character ends. -/
def insideString (c : CodePoint) : Bool := c != '\x07' && c != escapeCharacter

/-- The text after the end of a string: the bell, or the escape character with a backslash. -/
def afterString? (s : Text) : Option Text :=
  match s.dropWhile insideString with
  | '\x07' :: rest => some rest
  | '\x1b' :: '\\' :: rest => some rest
  | _ => none

/-- The text after a sequence of parameters, signs between them and a last letter. -/
def afterParameters? (s : Text) : Option Text :=
  match (s.dropWhile (between '0' '?')).dropWhile (between ' ' '/') with
  | c :: rest => if between '@' '~' c then some rest else none
  | [] => none

/-- Reads a sequence that moves the cursor by a number or sets colours, after its bracket. A move
without a number is one by one column. -/
def steering? (s : Text) : Option (ControlSequence × Text) :=
  let digits := s.takeWhile isDecimal
  let n := if digits.isEmpty then 1 else ofDigits 10 (digits.filterMap digitValue?)
  match s.dropWhile isDecimal with
  | 'G' :: rest => some (.toColumn n, rest)
  | 'C' :: rest => some (.right n, rest)
  | 'D' :: rest => some (.left n, rest)
  | _ =>
    match s.dropWhile fun c => isDecimal c || c == ';' || c == ':' with
    | 'm' :: rest => some (.plain, rest)
    | _ => none

/-- Reads a sequence that shows a text in a size of its own, after its bracket. One that ends with
its settings shows the empty text. -/
def sized? (s : Text) : Option (ControlSequence × Text) :=
  match s with
  | '6' :: '6' :: ';' :: s =>
    let isSetting := fun (c : CodePoint) => c != ';' && insideString c
    let text := (s.takeWhile insideString).dropWhile isSetting
    (afterString? s).map fun rest => (.sized (s.takeWhile isSetting) (text.drop 1), rest)
  | _ => none

/-- Reads a sequence of one sign, or of signs and a last character. -/
def short? : Text → Option Text
  | c :: s =>
    if between '0' '~' c then some s
    else if (c = '(' ∨ c = ')') ∧ s.head?.any fun (d : CodePoint) => d != '\n' then some s.tail
    else if between ' ' '/' c then
      match s.dropWhile (between ' ' '/') with
      | d :: rest => if between '0' '~' d then some rest else none
      | [] => none
    else none
  | [] => none

/-- The text after the sequence that follows the escape character, if one does. A sequence that
breaks off is none but its first sign. -/
def after? : Text → Option Text
  | '[' :: s => afterParameters? s <|> some s
  | ']' :: s | '_' :: s | 'P' :: s | '^' :: s => afterString? s <|> some s
  | s => short? s

/-- **Reads the sequence that follows the escape character**, if one does: what it does, and the
text after it. -/
def read? (s : Text) : Option (ControlSequence × Text) :=
  let special := match s with
    | '[' :: s => steering? s
    | ']' :: s => sized? s
    | _ => none
  special <|> (after? s).map fun rest => (.plain, rest)

end ControlSequence

end FiniteAutomata.Text
