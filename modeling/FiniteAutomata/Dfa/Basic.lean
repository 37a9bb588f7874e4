import FiniteAutomata.Identity

/-!
# Dfa/Basic — deterministic automata whose moves may be missing

A state of a `Dfa` has an identity, the set it stands for, and for each symbol a target or none. The
first state is the start state, and a state accepts if its identity meets the set of accepting
members. A run that comes to a missing move rejects.
-/

namespace FiniteAutomata

/-- **A state of a deterministic automaton**: its identity, and its targets as they are listed. -/
structure DfaState (σ : Type) where
  identity : σ
  targets : List (Symbol × Option Nat)

/-- The state has one target or none for each symbol, and its targets are among `n` states. -/
structure DfaState.Fits {σ : Type} (n : Nat) (A : Alphabet) (q : DfaState σ) : Prop where
  symbols_perm : (q.targets.map (·.1)).Perm A.symbols
  targets_lt : ∀ e ∈ q.targets, ∀ t, e.2 = some t → t < n

/-- **A deterministic automaton**, started in its first state. -/
structure Dfa (σ : Type) where
  alphabet : Alphabet
  states : List (DfaState σ)
  /-- The members that make an identity accepting. -/
  accepting : σ
  nonempty : states ≠ []
  states_fit : ∀ q ∈ states, q.Fits states.length alphabet

namespace Dfa

variable {σ : Type} (D : Dfa σ)

/-- The number of states. -/
def size : Nat := D.states.length

/-- **The target of a state on a symbol**, if it has one. -/
def target (i : Nat) (a : Symbol) : Option Nat := do
  let q ← D.states[i]?
  (← q.targets.lookup a)

/-- The targets of a state in the order of the alphabet. -/
def row (i : Nat) : List (Option Nat) := D.alphabet.symbols.map (D.target i)

variable [Identity σ]

/-- **The state accepts.** -/
def isAccepting (i : Nat) : Bool :=
  match D.states[i]? with
  | some q => Identity.meets q.identity D.accepting
  | none => false

/-- The accepting states in order. -/
def acceptStates : List Nat := (List.range D.size).filter D.isAccepting

/-- The other states in order. -/
def rejectStates : List Nat := (List.range D.size).filter fun i => !D.isAccepting i

/-- The word is accepted from a state: a symbol outside the alphabet rejects, and so does a missing
move. -/
def acceptsFrom (i : Nat) : List Symbol → Bool
  | [] => D.isAccepting i
  | a :: w =>
    if a ∈ D.alphabet then
      match D.target i a with
      | some j => acceptsFrom j w
      | none => false
    else false

/-- **The automaton accepts the word.** -/
def accepts (w : List Symbol) : Bool := D.acceptsFrom 0 w

end Dfa

end FiniteAutomata
