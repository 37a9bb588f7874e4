/-!
# Numeral/Binary64 — binary floating-point numbers of double width

A finite number is a signed significand times a power of two. `Binary64.ofRatio` rounds a fraction
to the nearest of them, a tie to the even significand; everything else about decimals goes through
it, so all arithmetic is exact.
-/

namespace FiniteAutomata

/-- **A floating-point number.** A finite one stands for `significand * 2 ^ exponent`, with a sign.
-/
inductive Binary64 where
  | finite (negative : Bool) (significand : Nat) (exponent : Int)
  | infinity (negative : Bool)
  | nan
deriving DecidableEq, Repr

namespace Binary64

/-- The least exponent; with it go the significands below `2 ^ 52`. -/
def leastExponent : Int := -1074

/-- The greatest exponent. -/
def greatestExponent : Int := 971

/-- Zero. -/
def zero (negative : Bool) : Binary64 := .finite negative 0 leastExponent

/-- The fraction `num / den * 2 ^ (-e)`. -/
def scaled (num den : Nat) (e : Int) : Nat × Nat :=
  if 0 ≤ e then (num, den * Nat.pow 2 e.toNat) else (num * Nat.pow 2 (-e).toNat, den)

/-- The exponent with which the fraction has a significand of 53 bits, or the least exponent. -/
def exponentFor (num den : Nat) : Int :=
  let e : Int := Nat.log2 num - Nat.log2 den - 52
  let (n, d) := scaled num den e
  max leastExponent (if n < d * Nat.pow 2 52 then e - 1 else e)

/-- The quotient rounded to the nearest number, a tie to the even one. -/
def divideToEven (num den : Nat) : Nat :=
  let q := num / den
  let r := num % den
  if den < 2 * r ∨ (2 * r = den ∧ q % 2 = 1) then q + 1 else q

/-- **The number nearest to `num / den`**, with a sign. -/
def ofRatio (negative : Bool) (num den : Nat) : Binary64 :=
  if num = 0 then zero negative
  else
    let e := exponentFor num den
    let (n, d) := scaled num den e
    let q := divideToEven n d
    let (q, e) := if q = Nat.pow 2 53 then (Nat.pow 2 52, e + 1) else (q, e)
    if greatestExponent < e then .infinity negative else .finite negative q e

/-- The number of decimal digits. -/
def digitCount (n : Nat) : Nat := (Nat.toDigits 10 n).length

/-- **The number nearest to `digits * 10 ^ exponent`**, with a sign. Far outside the range of
numbers no power is worked out. -/
def ofDecimal (negative : Bool) (digits : Nat) (exponent : Int) : Binary64 :=
  if digits = 0 then zero negative
  else
    let top : Int := digitCount digits + exponent
    if 310 < top then .infinity negative
    else if top < -330 then zero negative
    else if 0 ≤ exponent then ofRatio negative (digits * Nat.pow 10 exponent.toNat) 1
    else ofRatio negative digits (Nat.pow 10 (-exponent).toNat)

/-- An integer as a number of this kind, in no normal form but exact. -/
def ofInt (n : Int) : Binary64 := .finite (n < 0) n.natAbs 0

/-- The exact value as a fraction, if the number is finite. -/
def toRatio? : Binary64 → Option (Int × Nat)
  | .finite negative m e =>
    let sign : Int := if negative then -1 else 1
    some (if 0 ≤ e then (sign * (m * Nat.pow 2 e.toNat : Nat), 1)
      else (sign * (m : Int), Nat.pow 2 (-e).toNat))
  | _ => none

/-- The integer the number is, if it is one. -/
def toInt? (x : Binary64) : Option Int :=
  match x.toRatio? with
  | some (n, d) => if n % d = 0 then some (n / d) else none
  | none => none

/-- The two numbers are equal: zeros of either sign are, and nothing is equal to what is no
number. -/
def same : Binary64 → Binary64 → Bool
  | .finite s m e, .finite t k f => decide (m = 0 ∧ k = 0 ∨ s = t ∧ m = k ∧ e = f)
  | .infinity s, .infinity t => s == t
  | _, _ => false

/-- The first number is less than the second. -/
def less (x y : Binary64) : Bool :=
  match x, y with
  | .nan, _ => false
  | _, .nan => false
  | .infinity s, .infinity t => s && !t
  | .infinity s, _ => s
  | _, .infinity t => !t
  | _, _ =>
    match x.toRatio?, y.toRatio? with
    | some (a, b), some (c, d) => a * d < c * b
    | _, _ => false

end Binary64

end FiniteAutomata
