import FiniteAutomata.Document
import FiniteAutomata.Text.CodePoint
import FiniteAutomata.Text.Identifier

/-!
# Json5/Basic — relaxed JSON

A document may have comments, single quotes, keys without quotes, a sign and hexadecimal digits in
numbers, and a comma after the last item of a list. `Json5.read` takes a `Document` from a text or
finds that the text breaks the rules of the format. A number with a point or an exponent, and the
words for the values that are no numbers, are floating-point numbers; all others are integers. What
is written like a number need not stand for one: that is found when the document is decoded.
-/

namespace FiniteAutomata

namespace Json5

/-! ## Gaps -/

/-- Line feed, carriage return, and the separators of lines and paragraphs. -/
def isLineEnd (c : CodePoint) : Bool :=
  c == '\n' || c == '\r' || c == '\u2028' || c == '\u2029'

/-- White space of the format: any space separator, tabs, the form feed, line ends and the byte
order mark. -/
def isSpace (c : CodePoint) : Bool :=
  isLineEnd c || c == '\t' || c == '\x0b' || c == '\x0c' || c == ' ' || c == '\u00A0'
    || c == '\uFEFF' || c == '\u1680' || ('\u2000' ≤ c && c ≤ '\u200A') || c == '\u202F'
    || c == '\u205F' || c == '\u3000'

/-- Where skipping is: outside comments, in one that ends with the line, or in one that is closed.
-/
inductive Gap where
  | outside | line | block
deriving DecidableEq, Repr

/-- The text after white space and comments, unless a comment is not closed. -/
def skipFrom : Gap → Text → Option Text
  | .outside, '/' :: '/' :: s => skipFrom .line s
  | .outside, '/' :: '*' :: s => skipFrom .block s
  | .outside, c :: s => if isSpace c then skipFrom .outside s else some (c :: s)
  | .line, c :: s => if isLineEnd c then skipFrom .outside s else skipFrom .line s
  | .block, '*' :: '/' :: s => skipFrom .outside s
  | .block, _ :: s => skipFrom .block s
  | .block, [] => none
  | _, [] => some []

/-- The text from the next token on. -/
def skip (s : Text) : Option Text := skipFrom .outside s

/-! ## Texts -/

/-- What is read, with what is left. -/
abbrev Taken (α : Type) := α × Text

/-- Reads so many hexadecimal digits as a number. -/
def hexNumber : Nat → Nat → Text → Option (Taken Nat)
  | 0, n, s => some (n, s)
  | places + 1, n, c :: s =>
    match Text.hexDigit? c with
    | some d => hexNumber places (16 * n + d) s
    | none => none
  | _ + 1, _, [] => none

/-- The code units of a text as code points: a unit of the upper half of a surrogate pair goes with
a following one of the lower half, and any other stands alone. -/
def joinUnits : List Nat → Text
  | [] => []
  | [n] => [CodePoint.ofNat n]
  | n :: m :: rest =>
    if 0xD800 ≤ n ∧ n < 0xDC00 ∧ 0xDC00 ≤ m ∧ m < 0xE000 then
      CodePoint.ofNat (0x10000 + (n - 0xD800) * 0x400 + (m - 0xDC00)) :: joinUnits rest
    else CodePoint.ofNat n :: joinUnits (m :: rest)

/-- What a backslash and a letter stand for. -/
def shortEscape : CodePoint → CodePoint
  | 'b' => '\x08'
  | 'f' => '\x0c'
  | 'n' => '\n'
  | 'r' => '\r'
  | 't' => '\t'
  | 'v' => '\x0b'
  | c => c

/-- The text begins with a decimal digit. -/
def startsWithDigit : Text → Bool
  | c :: _ => c.isDigit
  | [] => false

/-- Reads what follows a backslash inside quotes: the code points it stands for. -/
def escape : Text → Option (Taken (List Nat))
  | '\r' :: '\n' :: s => some ([], s)
  | 'x' :: s => (hexNumber 2 0 s).map fun p => ([p.1], p.2)
  | 'u' :: s => (hexNumber 4 0 s).map fun p => ([p.1], p.2)
  | c :: s =>
    if isLineEnd c then some ([], s)
    else if c = '0' then if startsWithDigit s then none else some ([0], s)
    else if c.isDigit then none
    else some ([(shortEscape c).toNat], s)
  | [] => none

/-- Reads the rest of a text up to its closing quote, at most so many characters and escapes. -/
def quotedWithin (quote : CodePoint) : Nat → Text → Option (Taken (List Nat))
  | 0, _ => none
  | k + 1, c :: s =>
    if c = quote then some ([], s)
    else if c = '\\' then do
      let (units, s) ← escape s
      let (more, s) ← quotedWithin quote k s
      return (units ++ more, s)
    else if c = '\n' ∨ c = '\r' then none
    else do
      let (more, s) ← quotedWithin quote k s
      return (c.toNat :: more, s)
  | _ + 1, [] => none

/-- Reads a text after its opening quote. -/
def quotedText (quote : CodePoint) (s : Text) : Option (Taken Text) :=
  (quotedWithin quote (s.length + 1) s).map fun p => (joinUnits p.1, p.2)

/-- A name begins with a letter, a dollar sign or a low line. -/
def isNameStart (c : CodePoint) : Bool := c == '$' || c == '_' || Text.isLetter c

/-- A name goes on with the same, with digits, marks and connecting signs, and with the two signs
that part or join letters. -/
def isNamePart (c : CodePoint) : Bool :=
  isNameStart c || Text.isContinuing c || c == '\u200C' || c == '\u200D'

/-- Reads the rest of a name, at most so many characters and escapes. -/
def nameWithin : Nat → Text → Option (Taken (List Nat))
  | 0, s => some ([], s)
  | k + 1, '\\' :: 'u' :: s => do
    let (n, s) ← hexNumber 4 0 s
    let (more, s) ← nameWithin k s
    return (n :: more, s)
  | k + 1, c :: s =>
    if isNamePart c then do
      let (more, s) ← nameWithin k s
      return (c.toNat :: more, s)
    else some ([], c :: s)
  | _ + 1, [] => some ([], [])

/-- Reads a key: a text between quotes, or a name. -/
def key : Text → Option (Taken Text)
  | '"' :: s => quotedText '"' s
  | '\'' :: s => quotedText '\'' s
  | c :: s =>
    if c = '\\' ∨ isNameStart c then
      match nameWithin (s.length + 1) (c :: s) with
      | some ([], _) => none
      | some (units, rest) => some (joinUnits units, rest)
      | none => none
    else none
  | [] => none

/-! ## Numbers -/

/-- Takes away what the text begins with. -/
def dropWord? : Text → Text → Option Text
  | [], s => some s
  | _, [] => none
  | c :: word, d :: s => if c = d then dropWord? word s else none

/-- **A number as it is written**: whether a minus sign stands before it, its digits before the
point, those after the point if there is one, and the sign and the digits of its exponent if it has
one. -/
structure Decimal where
  negative : Bool
  whole : Text
  fraction : Option Text
  exponent : Option (Text × Text)
deriving DecidableEq, Repr

namespace Decimal

/-- The number as one text. -/
def text (x : Decimal) : Text :=
  (if x.negative then ("-" : Text) else []) ++ x.whole
    ++ (x.fraction.elim [] fun ds => ("." : Text) ++ ds)
    ++ x.exponent.elim [] fun e => ("e" : Text) ++ e.1 ++ e.2

/-- Nothing says that the number is a floating-point one. -/
def isInteger (x : Decimal) : Bool := x.fraction.isNone && x.exponent.isNone

/-- The number has digits wherever some are needed. -/
def isComplete (x : Decimal) : Bool :=
  !(x.whole.isEmpty && (x.fraction.getD []).isEmpty) && x.exponent.all fun e => !e.2.isEmpty

/-- The integer that digits stand for. -/
def natural (digits : Text) : Nat := Text.ofDigits 10 (digits.filterMap Text.basicDigit?)

/-- The exponent as a number, zero if there is none. -/
def power (x : Decimal) : Int :=
  match x.exponent with
  | some (sign, digits) => if sign = "-" then -(natural digits : Int) else natural digits
  | none => 0

/-- **What the number stands for.** -/
def toDocument (x : Decimal) : Document :=
  if x.isInteger then
    if Text.numeralLimit < x.whole.length then .faulty (.tooLong ⟨x.whole.length⟩)
    else .leaf (.int (if x.negative then -(natural x.whole : Int) else natural x.whole))
  else if ¬ x.isComplete then .faulty (.noFloat x.text)
  else
    let fraction := x.fraction.getD []
    let significand := natural (x.whole ++ fraction)
    .leaf (.float (.ofDecimal x.negative significand (x.power - fraction.length)))

end Decimal

/-- Reads the sign and the digits of an exponent, after its letter. -/
def exponentDigits (s : Text) : Taken (Text × Text) :=
  let sign := (s.take 1).filter fun (c : CodePoint) => c == '+' || c == '-'
  let s := s.drop sign.length
  ((sign, s.takeWhile CodePoint.isDigit), s.dropWhile CodePoint.isDigit)

/-- Reads an exponent if there is one. -/
def exponent (s : Text) : Taken (Option (Text × Text)) :=
  match s with
  | 'e' :: s | 'E' :: s => let (e, rest) := exponentDigits s; (some e, rest)
  | s => (none, s)

/-- Reads a point and the digits after it if there is one. -/
def fraction (s : Text) : Taken (Option Text) :=
  match s with
  | '.' :: s => (some (s.takeWhile CodePoint.isDigit), s.dropWhile CodePoint.isDigit)
  | s => (none, s)

/-- Reads a decimal number from its first digit or its point on. No zero stands before other
digits. -/
def decimalNumber (negative : Bool) (s : Text) : Option (Taken Document) :=
  let whole := s.takeWhile CodePoint.isDigit
  let (fraction, s) := fraction (s.dropWhile CodePoint.isDigit)
  let (exponent, s) := exponent s
  if (whole.isEmpty ∧ fraction.isNone) ∨
      (whole.head? = some (.char '0') ∧ 1 < whole.length) then none
  else some (Decimal.toDocument ⟨negative, whole, fraction, exponent⟩, s)

/-- Reads a hexadecimal number from its first digit on. -/
def hexInteger (negative : Bool) (s : Text) : Option (Taken Document) :=
  match s.takeWhile fun c => (Text.hexDigit? c).isSome with
  | [] => none
  | digits =>
    let n : Int := Text.ofDigits 16 (digits.filterMap Text.hexDigit?)
    some (.leaf (.int (if negative then -n else n)), s.drop digits.length)

/-- The floating-point numbers that are written as words, each by whether it is negative. -/
def specialNumbers : List (Text × (Bool → Binary64)) :=
  [("Infinity", .infinity), ("NaN", fun _ => .nan)]

/-- Reads a floating-point number that is written as a word. -/
def specialNumber (negative : Bool) (s : Text) : Option (Taken Document) :=
  specialNumbers.findSome? fun p => (dropWord? p.1 s).map fun rest =>
    (.leaf (.float (p.2 negative)), rest)

/-- Reads a number after its sign. -/
def unsignedNumber (negative : Bool) (s : Text) : Option (Taken Document) :=
  match s with
  | '0' :: 'x' :: s | '0' :: 'X' :: s => hexInteger negative s
  | s => specialNumber negative s <|> decimalNumber negative s

/-- Reads a number, perhaps with a sign. -/
def number : Text → Option (Taken Document)
  | '-' :: s => unsignedNumber true s
  | '+' :: s => unsignedNumber false s
  | s => unsignedNumber false s

/-! ## Values -/

/-- The words for values. -/
def constants : List (Text × Value) :=
  [("null", .null), ("true", .bool true), ("false", .bool false)]

/-- Reads one of the words for values, or a number. -/
def scalar (s : Text) : Option (Taken Document) :=
  (constants.findSome? fun p => (dropWord? p.1 s).map fun rest => (.leaf p.2, rest)) <|> number s

mutual

/-- Reads a value, to a depth and length that the length of the text bounds. -/
def valueWithin : Nat → Text → Option (Taken Document)
  | 0, _ => none
  | k + 1, s => do
    match ← skip s with
    | '[' :: s => do
      let (items, s) ← itemsWithin k s
      return (.array items, s)
    | '{' :: s => do
      let (entries, s) ← entriesWithin k s
      return (.object entries, s)
    | '"' :: s => do
      let (t, s) ← quotedText '"' s
      return (.leaf (.text t), s)
    | '\'' :: s => do
      let (t, s) ← quotedText '\'' s
      return (.leaf (.text t), s)
    | s => scalar s

/-- Reads the items of a list up to its closing bracket. -/
def itemsWithin : Nat → Text → Option (Taken (List Document))
  | 0, _ => none
  | k + 1, s => do
    match ← skip s with
    | ']' :: s => return ([], s)
    | s => do
      let (d, s) ← valueWithin k s
      match ← skip s with
      | ',' :: s => do
        let (ds, s) ← itemsWithin k s
        return (d :: ds, s)
      | ']' :: s => return ([d], s)
      | _ => none

/-- Reads the entries of an object up to its closing brace. -/
def entriesWithin : Nat → Text → Option (Taken (List (Text × Document)))
  | 0, _ => none
  | k + 1, s => do
    match ← skip s with
    | '}' :: s => return ([], s)
    | s => do
      let (name, s) ← key s
      match ← skip s with
      | ':' :: s => do
        let (d, s) ← valueWithin k s
        match ← skip s with
        | ',' :: s => do
          let (es, s) ← entriesWithin k s
          return ((name, d) :: es, s)
        | '}' :: s => return ([(name, d)], s)
        | _ => none
      | _ => none

end

/-- **The document that a text spells**, with nothing but gaps around it. -/
def read (s : Text) : Except Error Document :=
  if s = [] then .error .emptyText
  else
    match valueWithin (s.length + 1) s with
    | some (d, rest) =>
      match skip rest with
      | some [] => .ok d
      | _ => .error .badFormat
    | none => .error .badFormat

end Json5

end FiniteAutomata
