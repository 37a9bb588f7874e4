import FiniteAutomata.Dfa.Basic

/-!
# Lookup — automata asked with values

What an automaton is asked with need not be a state or a symbol. Values that are the same as a state
count as that state; a value that is no symbol reads nothing and stands in no word that is accepted.
Only values that no set can hold, indices that point nowhere and keys that are missing are refused.
-/

namespace FiniteAutomata

namespace Value

/-- A value as a symbol of a word. No alphabet has the empty text, so that stands for every value
that is no text. -/
def asSymbol : Value → Symbol
  | .text s => s
  | _ => ""

/-- A collection as a word. -/
def toWord (v : Value) : Except Error (List Symbol) := do
  return (← v.members).map asSymbol

end Value

namespace Nfa

variable (N : Nfa)

/-- The states that one transition leads to from a state on a symbol, both given as values; none if
they are no state and symbol. -/
def queryValue (s a : Value) : Except Error StateSet := do
  s.checkHashable
  a.checkHashable
  match s.toInt?, a with
  | some i, .text x => return N.query i (.ofText x)
  | _, _ => return ∅

/-- The states that one transition leads to from some of the given states. -/
def moveValue (states a : Value) : Except Error StateSet := do
  (← states.members).foldlM (fun found s => do return found ∪ (← N.queryValue s a)) ∅

/-- **All that empty moves reach from the members of a collection**, if these are states. -/
def closureValue (seed : Value) : Except Error StateSet := do
  let states ← (← seed.members).mapM fun v => v.checkState N.stateCount "epsilon_closure.seed"
  return N.closure (.ofList (states.map (·.1)))

end Nfa

namespace Dfa

variable {σ : Type} (D : Dfa σ)

/-- The state an index points to. -/
def stateAt (s : Value) : Except Error (DfaState σ) := do
  let i ← s.toPlace D.states.length
  return D.states[i]

/-- The target of a state on a symbol, both given as values. -/
def queryValue (s a : Value) : Except Error (Option Nat) := do
  let q ← D.stateAt s
  a.checkHashable
  match a with
  | .text x => match q.targets.lookup x with
    | some t => return t
    | none => throw (.missingKey a)
  | _ => throw (.missingKey a)

/-- The targets of a state in the order of the alphabet. -/
def rowValue (s : Value) : Except Error (List (Option Nat)) :=
  D.alphabet.symbols.mapM fun a => D.queryValue s (.text a)

/-- The state an index points to accepts. -/
def isAcceptingValue [Identity σ] (s : Value) : Except Error Bool := do
  return Identity.meets (← D.stateAt s).identity D.accepting

/-- The states as texts. -/
def describeStates [Identity σ] (m : Machine) : Except Error (List Text) :=
  D.states.mapM fun q => do return "DFAState(" ++ (← Identity.describe m q.identity) ++ ")"

/-- Each identity, with the identities that its state leads to. -/
def identityMoves : List (σ × List (Symbol × Option σ)) :=
  D.states.map fun q => (q.identity, q.targets.map fun e =>
    (e.1, e.2.bind fun t => D.states[t]?.map (·.identity)))

end Dfa

end FiniteAutomata
