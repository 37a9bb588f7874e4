import FiniteAutomata.Error

/-!
# Json5/Writing — data written as JSON

Data is written in the strict form of the format: keys and texts between double quotes, all
characters but the printable ones of the basic set as code units after a backslash, a comma and a
colon with a blank after them. What has been read as a part of an automaton has no such form, and
integers with too many digits are not written (`Json5.write`).
-/

namespace FiniteAutomata

namespace Json5

/-! ## Texts -/

/-- The code units of a character: those beyond the basic plane have a pair of them. -/
def codeUnits (c : CodePoint) : List Nat :=
  if c.toNat < 0x10000 then [c.toNat]
  else [0xD800 + (c.toNat - 0x10000) / 0x400, 0xDC00 + (c.toNat - 0x10000) % 0x400]

/-- A code unit written out in four digits. -/
def writtenUnit (n : Nat) : Text := '\\' :: 'u' :: Text.hexDigits 4 n

/-- One character as it stands between double quotes. -/
def writtenChar (c : CodePoint) : Text :=
  if c = '"' ∨ c = '\\' then ['\\', c]
  else if c = '\n' then ['\\', 'n']
  else if c = '\r' then ['\\', 'r']
  else if c = '\t' then ['\\', 't']
  else if c = '\x08' then ['\\', 'b']
  else if c = '\x0c' then ['\\', 'f']
  else if ' ' ≤ c ∧ c ≤ '~' then [c]
  else (codeUnits c).flatMap writtenUnit

/-- A text between double quotes. -/
def writtenText (s : Text) : Text := "\"" ++ s.flatMap writtenChar ++ "\""

/-! ## Numbers -/

/-- An integer in decimal digits. -/
def writtenInteger (n : Int) : Text :=
  if n < 0 then "-" ++ Text.spell n.natAbs else .spell n.natAbs

/-- A floating-point number. What is no number is written as a word. -/
def writtenFloat : Binary64 → Text
  | .nan => "NaN"
  | .infinity negative => (if negative then ("-" : Text) else []) ++ "Infinity"
  | x => x.describe

/-! ## Values -/

/-- Pieces with a comma and a blank between them. -/
def joined (pieces : List Text) : Text := List.intercalate ", " pieces

mutual

/-- **The value as JSON**, if it has such a form (`unserializable?`). -/
def written : Value → Text
  | .null => "null"
  | .bool b => (if b then "true" else "false")
  | .int n => writtenInteger n
  | .float x => writtenFloat x
  | .text s => writtenText s
  | .list vs | .tuple vs => "[" ++ joined (writtenAll vs) ++ "]"
  | .object fs => "\x7b" ++ joined (writtenFields fs) ++ "\x7d"
  | .transition _ | .nfa _ => []

/-- The values as JSON. -/
def writtenAll : List Value → List Text
  | [] => []
  | v :: vs => written v :: writtenAll vs

/-- The fields as entries of an object. -/
def writtenFields : List (Text × Value) → List Text
  | [] => []
  | (key, v) :: fs => (writtenText key ++ ": " ++ written v) :: writtenFields fs

end

mutual

/-- The reason for which the value is not written as JSON, if there is one: that of the first part
of it which is not. -/
def unserializable? : Value → Option Error
  | .int n => (unwritableInteger? n).map .unwritable
  | .list vs | .tuple vs => firstUnserializable? vs
  | .object fs => unserializableField? fs
  | .transition _ => some (.misuse (.serialized .transition))
  | .nfa _ => some (.misuse (.serialized .nfa))
  | _ => none

/-- The reason for which the first such member of a list is not written. -/
def firstUnserializable? : List Value → Option Error
  | [] => none
  | v :: vs => unserializable? v <|> firstUnserializable? vs

/-- The reason for which the first such field is not written. -/
def unserializableField? : List (Text × Value) → Option Error
  | [] => none
  | (_, v) :: fs => unserializable? v <|> unserializableField? fs

end

/-- **Writes a value as JSON.** -/
def write (v : Value) : Except Error Text :=
  match unserializable? v with
  | some e => .error e
  | none => .ok (written v)

end Json5

end FiniteAutomata
