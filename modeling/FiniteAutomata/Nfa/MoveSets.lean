import FiniteAutomata.Nfa.MoveTable

/-!
# Nfa/MoveSets — the listed transitions by state and symbol

What an automaton does on a label can be looked up if its transitions are gone through once: the
targets are collected in a set for each state and each symbol, the sign of the empty move among
them. Such sets are a table of moves again, and so they stand for transitions
(`MoveTable.transitions`), in which all that lead from one state to another are put together
(`Nfa.regrouped`).
-/

namespace FiniteAutomata

/-- The texts that name what the transition reads: its inputs, or the sign of the empty move. -/
def Transition.names (t : Transition) : List Symbol :=
  if t.isEpsilon then [epsilonSign] else t.inputs

/-- **Sets of targets** under a state and a symbol each, no two under the same. -/
abbrev MoveSets := List ((State × Symbol) × StateSet)

namespace MoveSets

/-- One more target under a key; the set comes last if it is the first under that key. -/
def add (key : State × Symbol) (x : State) : MoveSets → MoveSets
  | [] => [(key, .singleton x)]
  | e :: es => if e.1 = key then (e.1, e.2.insert x) :: es else e :: add key x es

/-- The sets with the target of one more transition, under each of its names. -/
def addTransition (sets : MoveSets) (t : Transition) : MoveSets :=
  t.names.foldl (fun sets a => sets.add (t.source, a) t.target) sets

/-- **The targets of listed transitions.** -/
def ofTransitions (ts : List Transition) : MoveSets := ts.foldl addTransition []

/-- The set under a key, which is empty if there is none. -/
def targets (sets : MoveSets) (key : State × Symbol) : StateSet := (sets.lookup key).getD ∅

/-- The sets as the entries of a table of moves. -/
def entries (sets : MoveSets) : List ((Value × Value) × Value) :=
  sets.map fun e => ((.int e.1.1, .text e.1.2), .list (e.2.elems.map .int))

end MoveSets

/-- **The transitions of an automaton, regrouped** by way of the sets of their targets. -/
def Nfa.regrouped (N : Nfa) : Except Error (List Transition) :=
  MoveTable.transitions (MoveSets.ofTransitions N.transitions).entries

end FiniteAutomata
