import FiniteAutomata.Text.CodePoint

/-!
# Text/Utf8 — text files

`Utf8.decode` reads bytes as UTF-8 and refuses them at the first one that no well-formed text goes
on with. A refusal names the bytes of the character that had been begun. In a text file all three
customary line ends stand for a line feed.
-/

namespace FiniteAutomata

namespace Utf8

/-- Why bytes are no UTF-8 text. -/
inductive Fault where
  | invalidStart
  | invalidContinuation
  | unexpectedEnd
deriving DecidableEq, Repr

/-- **The bytes that could not be decoded**: the first of them, where it stands, how many, why. -/
structure Failure where
  first : UInt8
  position : Nat
  length : Nat
  fault : Fault
deriving DecidableEq, Repr

/-- A character whose first byte has been read: where it began, the bytes read, how many it still
wants, the bounds of the next one, and the bits so far. -/
structure Pending where
  first : UInt8
  position : Nat
  length : Nat
  owed : Nat
  low : Nat
  high : Nat
  bits : Nat

/-- What a first byte begins, if it is not a whole character. -/
def Pending.ofFirst? (position : Nat) (b : UInt8) : Option Pending :=
  let n := b.toNat
  let start := fun owed low high bits => some ⟨b, position, 1, owed, low, high, bits⟩
  if 0xC2 ≤ n ∧ n ≤ 0xDF then start 1 0x80 0xBF (n - 0xC0)
  else if n = 0xE0 then start 2 0xA0 0xBF 0
  else if n = 0xED then start 2 0x80 0x9F 0xD
  else if 0xE1 ≤ n ∧ n ≤ 0xEF then start 2 0x80 0xBF (n - 0xE0)
  else if n = 0xF0 then start 3 0x90 0xBF 0
  else if 0xF1 ≤ n ∧ n ≤ 0xF3 then start 3 0x80 0xBF (n - 0xF0)
  else if n = 0xF4 then start 3 0x80 0x8F 4
  else none

/-- Decodes the bytes from a position on, after the beginning of a character if one is given. -/
def decodeFrom : Nat → Option Pending → List UInt8 → Except Failure (List Char)
  | _, none, [] => .ok []
  | _, some p, [] => .error ⟨p.first, p.position, p.length, .unexpectedEnd⟩
  | position, none, b :: bytes =>
    if b < 0x80 then do
      let rest ← decodeFrom (position + 1) none bytes
      return Char.ofNat b.toNat :: rest
    else match Pending.ofFirst? position b with
      | some p => decodeFrom (position + 1) (some p) bytes
      | none => .error ⟨b, position, 1, .invalidStart⟩
  | position, some p, b :: bytes =>
    let n := b.toNat
    if p.low ≤ n ∧ n ≤ p.high then
      let bits := p.bits * 64 + (n - 0x80)
      if p.owed ≤ 1 then do
        let rest ← decodeFrom (position + 1) none bytes
        return Char.ofNat bits :: rest
      else
        decodeFrom (position + 1)
          (some ⟨p.first, p.position, p.length + 1, p.owed - 1, 0x80, 0xBF, bits⟩) bytes
    else .error ⟨p.first, p.position, p.length, .invalidContinuation⟩

/-- **The characters that the bytes spell.** -/
def decode (bytes : List UInt8) : Except Failure (List Char) := decodeFrom 0 none bytes

end Utf8

namespace Text

/-- Every line end as a line feed: the pair of return and feed, and the return alone. -/
def unifyLineEnds : List Char → List Char
  | [] => []
  | '\r' :: '\n' :: cs => '\n' :: unifyLineEnds cs
  | c :: cs => (if c = '\r' then '\n' else c) :: unifyLineEnds cs

/-- The text in a file. -/
def ofFile (bytes : List UInt8) : Except Utf8.Failure Text := do
  let cs ← Utf8.decode bytes
  return (unifyLineEnds cs).map .char

end Text

end FiniteAutomata
