import FiniteAutomata.Alphabet
import FiniteAutomata.StateSet

/-!
# Listing — how states are written, and what keeps something from being written

A state is written as its number, a set of states between braces, and a missing target or an empty
list of states by the sign of the empty set. Where a table lists states, an arrow stands before the
start state and a star before an accepting one.

Integers may be of any size, but one with more digits than a numeral may have is not written, and a
table is not drawn if two of its headings are equal. A great many states are listed only if there is
room for the list, which is a matter of the `Machine` that is at hand.
-/

namespace FiniteAutomata

/-! ## States -/

/-- Texts with commas between them. -/
def commaList (names : List Text) : Text := List.intercalate "," names

/-- Texts between braces, with commas between them. -/
def braced (names : List Text) : Text := "\x7b" ++ commaList names ++ "\x7d"

/-- Texts with commas between them, or the sign of the empty set if there is none. -/
def listOrNone (names : List Text) : Text :=
  if names.isEmpty then emptySetSign else commaList names

/-- A target, or the sign of the empty set for a missing one. -/
def targetName : Option Int → Text
  | some t => .spell t
  | none => emptySetSign

/-- The name of a state where a table lists it. -/
def marked (isStart accepting : Bool) (name : Text) : Text :=
  (if accepting then ("* " : Text) else "") ++ (if isStart then ("-> " : Text) else "") ++ name

/-- The texts of the members of a set. -/
def StateSet.names (S : StateSet) : List Text := S.elems.map .spell

/-! ## Machines -/

/-- The greatest number of members that a list can have. -/
def longestList : Nat := Nat.pow 2 63 - 1

/-- **What there is room for.** No list has room for more members than it has indices for. -/
structure Machine where
  /-- The greatest number of states of which there is room for a list and what is written of it. -/
  room : Nat
  room_le : room ≤ longestList
  /-- The document that the text spells is nested too deeply to be read. -/
  tooDeep : Text → Bool

/-- A machine on which only the length of a list is a bound. -/
def Machine.ample : Machine := ⟨longestList, Nat.le_refl _, fun _ => false⟩

/-- **Why something cannot be written out.** -/
inductive Unwritable where
  /-- An integer has too many digits. -/
  | longInteger
  /-- A table has two equal headings. -/
  | repeatedHeading
  /-- There is no room for a list of all states. -/
  | noRoom
  /-- There are more states than a list can have members. -/
  | tooManyStates
deriving DecidableEq, Repr

/-- **The first states in order**, unless there are too many. -/
def Machine.listStates (m : Machine) (n : Nat) : Except Unwritable (List State) :=
  if longestList < n then .error .tooManyStates
  else if m.room < n then .error .noRoom
  else .ok ((List.range n).map Int.ofNat)

/-! ## What cannot be written -/

/-- The integer has more digits than a numeral may have. -/
def isLongInteger (n : Int) : Bool := decide (Nat.pow 10 Text.numeralLimit ≤ n.natAbs)

/-- The reason for which an integer is not written out, if there is one. -/
def unwritableInteger? (n : Int) : Option Unwritable :=
  if isLongInteger n then some .longInteger else none

/-- **What may keep something from being written out**: a reason that holds on any machine, or a
list of states that has to be made first. -/
inductive Obstacle where
  | reason (r : Unwritable)
  | states (n : Nat)
deriving DecidableEq, Repr

/-- The obstacle that a reason is, if there is one. -/
def obstacleOf (reason : Option Unwritable) : List Obstacle := reason.toList.map .reason

theorem mem_obstacleOf {reason : Option Unwritable} {o : Obstacle} :
    o ∈ obstacleOf reason ↔ ∃ r, reason = some r ∧ o = .reason r := by
  simp [obstacleOf, eq_comm]

theorem obstacles_of_long {n : Int} (h : isLongInteger n) :
    obstacleOf (unwritableInteger? n) = [.reason .longInteger] := by
  rw [unwritableInteger?, if_pos h]
  rfl

theorem obstacles_of_short {n : Int} (h : ¬ isLongInteger n) :
    obstacleOf (unwritableInteger? n) = [] := by
  rw [unwritableInteger?, if_neg h]
  rfl

/-- **What obstacles come to on a machine**: the first that it does not overcome. -/
def Machine.overcome (m : Machine) : List Obstacle → Except Unwritable Unit
  | [] => .ok ()
  | .reason r :: _ => .error r
  | .states n :: os => do
    let _ ← m.listStates n
    m.overcome os

end FiniteAutomata
