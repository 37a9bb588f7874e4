import FiniteAutomata.Error

/-!
# Layout — descriptions of automata in lines of text

    |Q|: 3
    Sigma: a b
    -----------
    0: {0,1} {0} {}
    1: {} {2} {}
    2: {} {} {0}
    -----------
    Initial State: 0
    Accepting State(s): 2

A description gives the number of states, the symbols, a row of sets for each state (one set for
each symbol and a last one for the empty moves), the start state and the accepting states. A
`Layout` holds what is written, the numerals as digits; `Layout.read` takes it from a text. Blanks
and tabs before a token are skipped, a token is as long as it can be, and reading fails at the first
place at which no token that could follow begins.
-/

namespace FiniteAutomata

/-- A numeral as it is written. -/
abbrev Digits := Text

/-- A row: its label, the text left where the label begins, and its sets. -/
structure Layout.Row where
  label : Digits
  labelRest : Nat
  sets : List (List Digits)
deriving DecidableEq, Repr

/-- **A description as it is written.** With each symbol and each label goes the number of
characters from there to the end of the text. -/
structure Layout where
  declared : Digits
  symbols : List (Symbol × Nat)
  rows : List Layout.Row
  initial : Digits
  accepting : List Digits
deriving DecidableEq, Repr

namespace Layout

/-! ## Places -/

/-- The position of the character before which so many others stand. -/
def positionAfter (before : Text) : Position :=
  let line := before.reverse.takeWhile fun (c : CodePoint) => c != '\n'
  ⟨before.count (.char '\n') + 1, line.length + 1⟩

/-- **The position at which so many characters of a text are left.** -/
def positionOf (text : Text) (rest : Nat) : Position :=
  positionAfter (text.take (text.length - rest))

/-! ## Tokens -/

/-- What is read, with what is left. -/
abbrev Taken (α : Type) := α × Text

/-- **A reader** takes what it reads from the beginning of a text. One that fails says what was left
where it did. -/
abbrev Reader (α : Type) := Text → Except Text (Taken α)

/-- Blanks and tabs stand between tokens. -/
def isGap (c : CodePoint) : Bool := c == ' ' || c == '\t'

/-- A symbol has no white space in it and none of the signs of the layout. -/
def isSymbolChar (c : CodePoint) : Bool :=
  !Text.isBlank c && c != '{' && c != '}' && c != ',' && c != ':'

/-- The text from the next token on. -/
def skipGaps (s : Text) : Text := s.dropWhile isGap

/-- Takes away what the text begins with. -/
def dropWord? : Text → Text → Option Text
  | [], s => some s
  | _, [] => none
  | c :: word, d :: s => if c = d then dropWord? word s else none

/-- Reads a fixed token. -/
def word (token : Text) (s : Text) : Except Text Text :=
  match dropWord? token (skipGaps s) with
  | some rest => .ok rest
  | none => .error (skipGaps s)

/-- Reads fixed tokens one after the other. -/
def words : List Text → Text → Except Text Text
  | [], s => .ok s
  | token :: tokens, s => do words tokens (← word token s)

/-- Reads a token of characters of one sort, at least one of them. -/
def run (p : CodePoint → Bool) : Reader Text := fun s =>
  let s := skipGaps s
  match s.takeWhile p with
  | [] => .error s
  | token => .ok (token, s.dropWhile p)

/-- Reads a numeral. -/
def numeral : Reader Digits := run CodePoint.isDigit

/-- The text after the line ends it begins with. -/
def dropBreaks : Text → Text
  | '\n' :: s => dropBreaks s
  | '\r' :: '\n' :: s => dropBreaks s
  | s => s

/-- The next token is a line end. -/
def atBreak (s : Text) : Bool :=
  match skipGaps s with
  | '\n' :: _ => true
  | '\r' :: '\n' :: _ => true
  | _ => false

/-- Reads one line end or more. -/
def breaks (s : Text) : Except Text Text :=
  if atBreak s then .ok (dropBreaks (skipGaps s)) else .error (skipGaps s)

/-- Reads line ends if there are any. -/
def optionalBreaks (s : Text) : Text :=
  if atBreak s then dropBreaks (skipGaps s) else s

/-- The next token begins with a character of this sort. -/
def nextIs (p : CodePoint → Bool) (s : Text) : Bool :=
  match skipGaps s with
  | c :: _ => p c
  | [] => false

/-! ## Parts

Repeated parts are read at most so many times, which the length of the text bounds. -/

/-- Reads parts of one sort until something follows that does not begin with a character they begin
with, at most so many times. -/
def manyWithin {α : Type} (p : CodePoint → Bool) (part : Reader α) : Nat → Reader (List α)
  | 0, s => .ok ([], s)
  | k + 1, s =>
    if nextIs p s then do
      let (x, rest) ← part s
      let (xs, rest) ← manyWithin p part k rest
      return (x :: xs, rest)
    else .ok ([], s)

/-- Reads parts of one sort until something else follows. -/
def many {α : Type} (p : CodePoint → Bool) (part : Reader α) : Reader (List α) := fun s =>
  manyWithin p part s.length s

/-- Reads a symbol. -/
def symbol : Reader (Symbol × Nat) := fun s => do
  let (a, rest) ← run isSymbolChar s
  return ((a, (skipGaps s).length), rest)

/-- Reads a comma and a numeral. -/
def commaNumeral : Reader Digits := fun s => do numeral (← word "," s)

/-- Reads numerals with commas between them, perhaps none. -/
def numerals : Reader (List Digits) := fun s =>
  if nextIs CodePoint.isDigit s then do
    let (n, rest) ← numeral s
    let (ns, rest) ← many (· == ',') commaNumeral rest
    return (n :: ns, rest)
  else .ok ([], s)

/-- Reads a set of numerals between braces. -/
def set : Reader (List Digits) := fun s => do
  let s ← word "\x7b" s
  let (ns, rest) ← numerals s
  return (ns, ← word "\x7d" rest)

/-- Reads a row and the line ends after it. -/
def row : Reader Row := fun s => do
  let (label, rest) ← numeral s
  let rest ← word ":" rest
  let (first, rest) ← set rest
  let (sets, rest) ← many (· == '{') set rest
  return (⟨label, (skipGaps s).length, first :: sets⟩, ← breaks rest)

/-- Reads a line of dashes and the line ends after it. -/
def dashes (s : Text) : Except Text Text := do
  let (_, rest) ← run (· == '-') s
  breaks rest

/-! ## The whole -/

/-- Reads the rows, with the lines of dashes around them. -/
def table : Reader (List Row) := fun s => do
  let (first, s) ← row (← dashes s)
  let (rows, s) ← many CodePoint.isDigit row s
  return (first :: rows, ← dashes s)

/-- Reads a line that begins with fixed tokens, and the line ends after it. -/
def line {α : Type} (tokens : List Text) (part : Reader α) : Reader α := fun s => do
  let (x, rest) ← part (← words tokens s)
  return (x, ← breaks rest)

/-- Reads a whole description. -/
def readAll : Reader Layout := fun s => do
  let (declared, s) ← line ["|Q|", ":"] numeral (optionalBreaks s)
  let (symbols, s) ← line ["Sigma", ":"] (many isSymbolChar symbol) s
  let (rows, s) ← table s
  let (initial, s) ← line ["Initial", "State", ":"] numeral s
  let (accepting, s) ← numerals (← words ["Accepting", "State(s)", ":"] s)
  return (⟨declared, symbols, rows, initial, accepting⟩, skipGaps (optionalBreaks s))

/-- **The description that a text spells.** -/
def read (text : Text) : Except Error Layout :=
  let failure := fun (rest : Text) =>
    if rest = [] then Error.layout true .unknown
    else .layout false (positionOf text rest.length)
  match readAll text with
  | .ok (l, []) => .ok l
  | .ok (_, rest) => .error (failure rest)
  | .error rest => .error (failure rest)

end Layout

end FiniteAutomata
