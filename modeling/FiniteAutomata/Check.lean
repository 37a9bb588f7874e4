import FiniteAutomata.Error
import FiniteAutomata.Sorting.Runs

/-!
# Check — values put to a use

What a value can be used for depends on its kind: its members can be gone through, it can be
counted, kept in a set, used as an index, put in order, or taken for a field of some kind. Each use
either yields what was wanted or names the misuse. A truth value is never taken for a field,
whatever kind is wanted.
-/

namespace FiniteAutomata

namespace Value

/-! ## Collections -/

/-- The members of a collection: the characters of a text, the keys of an object. -/
def members : Value → Except Error (List Value)
  | .text s => .ok (s.map fun c => .text [c])
  | .list vs => .ok vs
  | .tuple vs => .ok vs
  | .object fs => .ok (fs.map fun f => .text f.1)
  | v => .error (.misuse (.iterated v.kind))

/-- The number of members of a collection. -/
def size (v : Value) : Except Error Nat :=
  match v.members with
  | .ok vs => .ok vs.length
  | .error _ => .error (.misuse (.measured v.kind))

mutual

/-- The kind that keeps the value out of every set, if there is one: lists and objects are kept out,
and tuples that hold any. -/
def unhashable? : Value → Option Kind
  | .list _ => some .list
  | .object _ => some .object
  | .tuple vs => firstUnhashable? vs
  | _ => none

/-- The first such kind among the values. -/
def firstUnhashable? : List Value → Option Kind
  | [] => none
  | v :: vs => match v.unhashable? with
    | some k => some k
    | none => firstUnhashable? vs

end

/-- Refuses a value that no set can hold. -/
def checkHashable (v : Value) : Except Error Unit :=
  match v.unhashable? with
  | some k => .error (.misuse (.hashed k))
  | none => .ok ()

/-- **The distinct members of a collection**, if a set can hold them. -/
def distinctMembers (v : Value) : Except Error (List Value) := do
  let vs ← v.members
  vs.forM checkHashable
  return distinct vs

/-! ## Truth -/

/-- **The value counts as true**: it is no zero, no empty text or collection, and not nothing. -/
def isTrue : Value → Bool
  | .null => false
  | .text s => !s.isEmpty
  | .list vs | .tuple vs => !vs.isEmpty
  | .object fs => !fs.isEmpty
  | v => v.toInt? != some 0

/-! ## Order -/

mutual

/-- **Whether one value comes before another**: numbers by size, texts by their characters, and
sequences of one kind by their first members that differ. -/
def less? : Value → Value → Except Error Bool
  | .text s, .text t => .ok (s < t)
  | .list vs, .list ws => lessAll? vs ws
  | .tuple vs, .tuple ws => lessAll? vs ws
  | v, w =>
    match v.toInt?, v.toFraction?, w.toInt?, w.toFraction? with
    | some m, _, some n, _ => .ok (m < n)
    | some m, _, none, some y => .ok ((Binary64.ofInt m).less y)
    | none, some x, some n, _ => .ok (x.less (Binary64.ofInt n))
    | none, some x, none, some y => .ok (x.less y)
    | _, _, _, _ => .error (.misuse (.compared "<" v.kind w.kind))

/-- Whether one sequence comes before another; a beginning comes before the whole. -/
def lessAll? : List Value → List Value → Except Error Bool
  | _, [] => .ok false
  | [], _ => .ok true
  | v :: vs, w :: ws => if v.same w then lessAll? vs ws else less? v w

end

/-- **The values in ascending order**, if they have one. -/
def sorted (vs : List Value) : Except Error (List Value) := Sorting.sort less? vs

/-- Whether the value is zero or more, as a number. -/
def isNonNegative? (v : Value) : Except Error Bool :=
  match v.toInt?, v.toFraction? with
  | some n, _ => .ok (0 ≤ n)
  | none, some x => .ok ((Binary64.ofInt 0).less x)
  | none, none => .error (.misuse (.compared ">=" v.kind .int))

/-- **A message with a position in front of it**, if its line is zero or more. -/
def tell (m : Machine) (line column message : Value) : Except Error Text := do
  if ← line.isNonNegative? then
    m.write (obstaclesOfAll [line, column, message])
      ("line " ++ line.plain ++ ", column " ++ column.plain ++ ": " ++ message.plain)
  else return message.plain

/-! ## Indices -/

/-- The least and the greatest integer an index can be. -/
def indexBounds : Int × Int := (-(Nat.pow 2 63 : Int), (Nat.pow 2 63 : Int) - 1)

/-- **The place in a list of `n` that an index points to.** Truth values count as numbers; a
negative index counts from the end. -/
def toPlace (v : Value) (n : Nat) : Except Error (Fin n) :=
  match v with
  | .bool _ | .int _ =>
    let i := v.toInt?.getD 0
    let k := if i < 0 then i + n else i
    if h : 0 ≤ k ∧ k.toNat < n then .ok ⟨k.toNat, h.2⟩
    else if i < indexBounds.1 ∨ indexBounds.2 < i then .error .indexTooLarge
    else .error .outOfRange
  | _ => .error (.misuse (.index v.kind))

/-! ## Fields -/

/-- The value is of the wanted kind. -/
def isOfKind (v : Value) (wanted : Kind) : Bool :=
  v.kind != .bool && (wanted == .anything || v.kind == wanted)

/-- Refuses a field that is not of the wanted kind. -/
def checkKind (v : Value) (wanted : Kind) (field : Text) : Except Error Unit :=
  if v.isOfKind wanted then .ok () else .error (.malformed (.wrongKind field wanted v.kind))

/-- Refuses a field that is not a collection of the wanted kind with members of the wanted kind, or
that is empty though it must not be. -/
def checkArray (v : Value) (member collection : Kind) (field : Text) (allowEmpty : Bool) :
    Except Error Unit := do
  v.checkKind collection field
  unless allowEmpty do
    if (← v.size) = 0 then throw (.malformed (.emptyField field))
  (← v.members).forM fun w => w.checkKind member (field ++ "[]")

/-- The integer in a field. -/
def checkInt (v : Value) (field : Text) : Except Error Int :=
  match v with
  | .int n => .ok n
  | _ => .error (.malformed (.wrongKind field .int v.kind))

/-- The text in a field. -/
def checkText (v : Value) (field : Text) : Except Error Text :=
  match v with
  | .text s => .ok s
  | _ => .error (.malformed (.wrongKind field .text v.kind))

/-- **The state in a field**, one of the first `count`. -/
def checkState (v : Value) (count : Int) (field : Text) :
    Except Error { s : State // 0 ≤ s ∧ s < count } := do
  let s ← v.checkInt field
  if h : 0 ≤ s ∧ s < count then return ⟨s, h⟩
  else throw (.ofMalformed (.noSuchState field s (.int count)))

/-- Refuses a field that is not a state below a bound, which may be of any kind. -/
def checkStateBelow (v bound : Value) (field : Text) : Except Error Unit := do
  let s ← v.checkInt field
  let inRange ← if 0 ≤ s then (Value.int s).less? bound else pure false
  unless inRange do throw (.ofMalformed (.noSuchState field s bound))

end Value

end FiniteAutomata
