import FiniteAutomata.Transition

/-!
# Nfa/Basic — nondeterministic automata with empty moves, and their simulation

An `Nfa` has finitely many states `0 .. stateCount - 1`, an alphabet and a list of transitions
whose ends and inputs fit. What it does on a label is read off that list: `Nfa.move` collects the
targets (`Nfa.mem_move`), `Nfa.closure` adds all that empty moves reach, and `Nfa.accepts` carries
the closed set of current states along a word.
-/

namespace FiniteAutomata

/-- **A nondeterministic automaton with empty moves.** -/
structure Nfa where
  stateCount : Nat
  alphabet : Alphabet
  transitions : List Transition
  start : State
  accepting : StateSet
  start_inRange : InRange stateCount start
  accepting_inRange : ∀ s ∈ accepting.elems, InRange stateCount s
  transitions_fit : ∀ t ∈ transitions, t.Fits stateCount alphabet
deriving DecidableEq

namespace Nfa

variable (N : Nfa)

/-- The states in order. -/
def states : List State := (List.range N.stateCount).map Int.ofNat

/-- The states that one transition on the label leads to from a member of the set. -/
def move (S : StateSet) (l : Label) : StateSet :=
  let fits := fun t : Transition => decide (t.Reads l) && decide (t.source ∈ S)
  .ofList ((N.transitions.filter fits).map (·.target))

theorem mem_move {S : StateSet} {l : Label} {x : State} :
    x ∈ N.move S l ↔ ∃ t ∈ N.transitions, t.Reads l ∧ t.source ∈ S ∧ t.target = x := by
  simp [move, and_assoc]

/-- The states that one transition on the label leads to from one state. -/
def query (s : State) (l : Label) : StateSet := N.move (.singleton s) l

/-! ## Empty moves -/

/-- The set and all that one more empty move reaches. -/
def spread (S : StateSet) : StateSet := S ∪ N.move S .epsilon

/-- Spreads until nothing is added, at most so many times. -/
def closeWithin : Nat → StateSet → StateSet
  | 0, S => S
  | k + 1, S => if N.spread S = S then S else closeWithin k (N.spread S)

/-- **The least set above `S` that no empty move leaves.** Each round but the last adds the target
of a transition that was not there, so there are no more rounds than transitions. -/
def closure (S : StateSet) : StateSet := N.closeWithin N.transitions.length S

/-! ## Simulation -/

/-- The closed set in which every run starts. -/
def startSet : StateSet := N.closure (.singleton N.start)

/-- The closed set after one symbol. -/
def step (S : StateSet) (a : Symbol) : StateSet := N.closure (N.move S (.symbol a))

/-- The word is accepted from the closed set `S`: a symbol outside the alphabet rejects, and so
does a set that has run empty. -/
def acceptsFrom (S : StateSet) : List Symbol → Bool
  | [] => S.meets N.accepting
  | a :: w =>
    if a ∈ N.alphabet then
      let T := N.step S a
      if T.isEmpty then false else acceptsFrom T w
    else false

/-- **The automaton accepts the word.** -/
def accepts (w : List Symbol) : Bool := N.acceptsFrom N.startSet w

end Nfa

end FiniteAutomata
