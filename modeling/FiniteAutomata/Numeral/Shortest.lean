import FiniteAutomata.Numeral.Binary64
import FiniteAutomata.Text.CodePoint

/-!
# Numeral/Shortest — the fewest decimal digits that read back

Of the decimals that are read as a given floating-point number, one with the fewest digits is
written, and of those the nearest. On the grid of decimals with a given number of digits only the
two neighbours of the exact value have to be tried. How the digits are laid out is one record.
-/

namespace FiniteAutomata

/-- Digits, and where the point stands: so many places after the first digit's left edge. -/
structure Decimal where
  digits : Nat
  point : Int
deriving DecidableEq, Repr

/-- The least power of ten above a positive fraction, found from an estimate. -/
def pointOf (num den : Nat) : Int :=
  let e : Int := Binary64.digitCount num - Binary64.digitCount den
  let below : Bool :=
    if 0 ≤ e then decide (num < den * Nat.pow 10 e.toNat)
    else decide (num * Nat.pow 10 (-e).toNat < den)
  if below then e else e + 1

/-- The neighbours of a positive fraction on the grid of decimals with `k` digits, the nearer one
first and of two equally near ones the even one. -/
def gridNeighbours (num den : Nat) (point : Int) (k : Nat) : List Nat :=
  let shift : Int := k - point
  let (n, d) :=
    if 0 ≤ shift then (num * Nat.pow 10 shift.toNat, den)
    else (num, den * Nat.pow 10 (-shift).toNat)
  let q := n / d
  let r := n % d
  if 2 * r < d ∨ (2 * r = d ∧ q % 2 = 0) then [q, q + 1] else [q + 1, q]

/-- **The shortest decimal that reads back** as the given positive number. -/
def shortestDecimal (significand : Nat) (exponent : Int) : Decimal :=
  let x := Binary64.finite false significand exponent
  match x.toRatio? with
  | some (.ofNat num, den) =>
    let point := pointOf num den
    let found := (List.range 17).findSome? fun i =>
      let k := i + 1
      ((gridNeighbours num den point k).find? fun q =>
        decide (Binary64.ofDecimal false q (point - k) = x)).map fun q => (q, point - k)
    match found with
    | some (q, scale) => ⟨q, Binary64.digitCount q + scale⟩
    | none => ⟨num, point⟩
  | _ => ⟨0, 1⟩

/-- How a number is laid out. -/
structure DecimalStyle where
  /-- The point of a number written without an exponent is above this. -/
  lowPoint : Int
  /-- The point of a number written without an exponent is at most this. -/
  highPoint : Int
  /-- The fewest digits of an exponent. -/
  exponentDigits : Nat

/-- Digits without the zeros at their end. -/
def trimZeros (digits : Text) : Text :=
  (digits.reverse.dropWhile fun (c : CodePoint) => c == '0').reverse

/-- A decimal in the given layout. -/
def DecimalStyle.layOut (style : DecimalStyle) (x : Decimal) : Text :=
  let digits := trimZeros (.spell x.digits)
  let count : Int := digits.length
  let zeros := fun (n : Int) => (List.replicate n.toNat '0' : Text)
  let fraction := fun (ds : Text) => ("." : Text) ++ ds
    if style.lowPoint < x.point ∧ x.point ≤ style.highPoint then
      if x.point ≤ 0 then "0" ++ fraction (zeros (-x.point) ++ digits)
      else if count ≤ x.point then digits ++ zeros (x.point - count) ++ fraction "0"
      else digits.take x.point.toNat ++ fraction (digits.drop x.point.toNat)
    else
      let e := x.point - 1
      let exponent : Text := .spell e.natAbs
      digits.take 1 ++ (if count ≤ 1 then [] else fraction (digits.drop 1))
        ++ (if e < 0 then "e-" else "e+")
        ++ (zeros (style.exponentDigits - exponent.length) ++ exponent)

/-- Numbers from a ten-thousandth up to below ten to the sixteenth are written without an exponent;
an exponent has two digits or more. -/
def plainStyle : DecimalStyle := ⟨-4, 16, 2⟩

/-- **A floating-point number as text.** -/
def Binary64.describe : Binary64 → Text
  | .nan => "nan"
  | .infinity negative => (if negative then "-" else "") ++ "inf"
  | .finite negative m e =>
    (if negative then "-" else "")
      ++ (if m = 0 then ("0.0" : Text) else plainStyle.layOut (shortestDecimal m e))

/-! ## Reading -/

/-- A decimal with an optional fraction and an optional exponent, without a sign. -/
def readUnsigned? (negative : Bool) (s : Text) : Option Binary64 :=
  let whole := s.takeWhile CodePoint.isDigit
  let s := s.dropWhile CodePoint.isDigit
  let (fraction, s) := match s with
    | '.' :: s => (s.takeWhile CodePoint.isDigit, s.dropWhile CodePoint.isDigit)
    | s => ([], s)
  let digits := Text.ofDigits 10 ((whole ++ fraction).filterMap Text.basicDigit?)
  let scaledBy := fun (e : Int) => Binary64.ofDecimal negative digits (e - fraction.length)
  if whole.isEmpty && fraction.isEmpty then none
  else match s with
    | [] => some (scaledBy 0)
    | c :: s =>
      if c = 'e' ∨ c = 'E' then
        let (minus, s) := match s with
          | '-' :: s => (true, s)
          | '+' :: s => (false, s)
          | s => (false, s)
        if s.isEmpty || !s.all CodePoint.isDigit then none
        else
          let e : Int := Text.ofDigits 10 (s.filterMap Text.basicDigit?)
          some (scaledBy (if minus then -e else e))
      else none

/-- The number a decimal text stands for, the words for the other values among them. -/
def Binary64.ofText? (s : Text) : Option Binary64 :=
  let (negative, s) := match s with
    | '-' :: s => (true, s)
    | '+' :: s => (false, s)
    | s => (false, s)
  let word := s.map CodePoint.toLower
  if word = "inf" ∨ word = "infinity" then some (.infinity negative)
  else if word = "nan" then some .nan
  else readUnsigned? negative s

end FiniteAutomata
