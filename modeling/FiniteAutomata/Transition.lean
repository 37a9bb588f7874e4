import FiniteAutomata.Listing

/-!
# Transition — one listed move between two states

A `Transition` leads from a source to a target and can be taken on any of its inputs; one without
inputs is an empty move. The sign of the empty move is never an input, so what a transition reads
(`Transition.Reads`) is decided by its inputs alone.
-/

namespace FiniteAutomata

/-- **A listed move**: it is taken on any one of its inputs, or on nothing if it has none. -/
structure Transition where
  source : State
  target : State
  inputs : List Symbol
  epsilon_notMem : epsilonSign ∉ inputs

instance : DecidableEq Transition := fun t u =>
  decidable_of_iff (t.source = u.source ∧ t.target = u.target ∧ t.inputs = u.inputs)
    (by cases t; cases u; simp)

namespace Transition

/-- A transition without inputs is an empty move. -/
def isEpsilon (t : Transition) : Bool := t.inputs.isEmpty

/-- The inputs as one text, or the sign of the empty move. -/
def label (t : Transition) : Text :=
  if t.isEpsilon then epsilonSign else commaList t.inputs

/-- The transition as one line of text. -/
def describe (t : Transition) : Text :=
  .spell t.source ++ "->" ++ .spell t.target ++ " on \x7b" ++ t.label ++ "\x7d"

/-- The reason for which the transition is not written out, if there is one. -/
def unwritable? (t : Transition) : Option Unwritable :=
  unwritableInteger? t.source <|> unwritableInteger? t.target

/-- The transition can be taken on this label. -/
def Reads (t : Transition) : Label → Prop
  | .epsilon => t.inputs = []
  | .symbol a => a ∈ t.inputs

instance (t : Transition) : (l : Label) → Decidable (t.Reads l)
  | .epsilon => inferInstanceAs (Decidable (t.inputs = []))
  | .symbol a => inferInstanceAs (Decidable (a ∈ t.inputs))

/-- The transition belongs to an automaton with `n` states over `A`. -/
structure Fits (n : Nat) (A : Alphabet) (t : Transition) : Prop where
  source_inRange : InRange n t.source
  target_inRange : InRange n t.target
  inputs_mem : ∀ a ∈ t.inputs, a ∈ A

end Transition

end FiniteAutomata
