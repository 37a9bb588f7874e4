import FiniteAutomata.Dfa.Assembly
import FiniteAutomata.Identity

/-!
# Dfa/Subset — the subset construction

The states of the deterministic automaton stand for the sets of states that a nondeterministic one
can be in after some word. They are explored breadth first: sets are numbered as they turn up, and
the rows are worked out in that order, so the next set to be explored is the one whose number is the
number of rows. A set that has run empty is no state; the move that leads to it is missing.
-/

namespace FiniteAutomata

/-- **How far the exploration has come**: the sets that have turned up, and the rows of the first of
them. -/
structure Exploration where
  found : IdentityTable StateSet
  rows : List (List (Symbol × Option Nat))

namespace Nfa

variable (N : Nfa)

/-- More states than the limit allows, if there is a limit. -/
def exceeds (limit : Value) (n : Nat) : Except Error Bool :=
  match limit with
  | .null => .ok false
  | m => m.less? (.int n)

/-- **The row of a set**: for each symbol the number of the set it leads to, which is entered in the
table if it is new. -/
def visit (limit : Value) (S : StateSet) : List Symbol → IdentityTable StateSet →
    Except Error (List (Symbol × Option Nat) × IdentityTable StateSet)
  | [], found => .ok ([], found)
  | a :: symbols, found => do
    let T := N.step S a
    if T.isEmpty then
      let (row, found) ← visit limit S symbols found
      return ((a, none) :: row, found)
    else
      let (i, isNew, found) := found.insert T
      if isNew then
        if ← exceeds limit found.size then throw (.ofLimit limit)
      let (row, found) ← visit limit S symbols found
      return ((a, some i) :: row, found)

/-- Explores sets in the order in which they turned up, at most so many. -/
def explore (limit : Value) : Nat → Exploration → Except Error Exploration
  | 0, e => .ok e
  | k + 1, e =>
    match e.found.identities[e.rows.length]? with
    | none => .ok e
    | some S => do
      let (row, found) ← N.visit limit S N.alphabet.symbols e.found
      explore limit k ⟨found, e.rows ++ [row]⟩

/-- The start state and all targets: no state outside is ever reached. -/
def reachedStates : StateSet := .ofList (N.start :: N.transitions.map (·.target))

/-- A bound on the number of sets that can turn up. -/
def subsetBound : Nat := Nat.pow 2 N.reachedStates.elems.length

/-- The exploration from the closed set of the start state. -/
def exploration (limit : Value) : Except Error Exploration := do
  let found := (IdentityTable.empty.insert N.startSet).2.2
  if ← exceeds limit 1 then throw (.ofLimit limit)
  N.explore limit (N.subsetBound + 1) ⟨found, []⟩

/-- The sets and rows of an exploration as states. -/
def givenStates (e : Exploration) : List (GivenState StateSet) :=
  (e.found.identities.zip e.rows).map fun p =>
    .state p.1 (p.2.map fun q => (.text q.1, match q.2 with
      | some i => .int i
      | none => .null))

/-- **The deterministic automaton of the sets of states**, unless it has more states than the limit
allows. -/
def toDfa (limit : Value) : Except Error (Dfa StateSet) := do
  let e ← N.exploration limit
  Dfa.ofStates (givenStates e) N.alphabet N.accepting

end Nfa

end FiniteAutomata
