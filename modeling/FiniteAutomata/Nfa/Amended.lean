import FiniteAutomata.Listing
import FiniteAutomata.Nfa.Basic
import FiniteAutomata.Text.Diagram
import FiniteAutomata.Text.Table

/-!
# Nfa/Amended — an automaton whose list of transitions has grown

An automaton fixes what it does when it is built. Transitions that are added to its list later are
listed with the others, in tables, diagrams and checks, but its moves stay those of the automaton
it was built as. An `Amended` automaton keeps the two apart: the `base`, which moves, and the
transitions `added` since.
-/

namespace FiniteAutomata

/-- **An automaton and the transitions listed since it was built.** -/
structure Amended where
  base : Nfa
  added : List Transition
deriving DecidableEq

namespace Amended

/-- The automaton as it was built. -/
def ofNfa (N : Nfa) : Amended := ⟨N, []⟩

/-- The automaton with one more listed transition. -/
def append (M : Amended) (t : Transition) : Amended := { M with added := M.added ++ [t] }

variable (M : Amended)

/-- All listed transitions, the added ones last. -/
def transitions : List Transition := M.base.transitions ++ M.added

/-- The headings of the columns of the automaton's table: the alphabet, and the sign of the empty
move if some listed transition is one. -/
def columns : List Symbol :=
  M.base.alphabet.symbols ++ if M.transitions.any (·.isEpsilon) then [epsilonSign] else []

/-- The headings of the automaton's table. -/
def stateHeadings : List Text := "STATE" :: M.columns

/-- The table of moves, a row for each state. -/
def table : Table where
  columns := M.stateHeadings
  rightFirst := true
  rows := M.base.states.map fun s =>
    marked (s == M.base.start) (s ∈ M.base.accepting) (.spell s)
      :: M.columns.map fun a => listOrNone (M.base.query s (.ofText a)).names

/-- What may keep the table from being drawn: a symbol clashes with its first heading, or there are
too many states for a list of them. -/
def obstacles : List Obstacle :=
  if M.stateHeadings.Nodup then [.states M.base.stateCount] else [.reason .repeatedHeading]

/-- **The table as text**, if it can be drawn. -/
def describe (m : Machine) : Except Unwritable Text := do
  m.overcome M.obstacles
  match M.table.render? with
  | some s => return s
  | none => throw .repeatedHeading

/-- The graph of the listed transitions. -/
def diagram : Diagram where
  name := "nfa"
  nodes := M.base.states.map fun s => (.spell s, decide (s ∈ M.base.accepting))
  start := .spell M.base.start
  edges := M.transitions.map fun t => ⟨.spell t.source, .spell t.target, some t.label⟩

/-- **The listed transitions as texts**, unless one cannot be written out. -/
def describeTransitions : Except Unwritable (List Text) :=
  M.transitions.mapM fun t => match t.unwritable? with
    | some reason => .error reason
    | none => .ok t.describe

/-- **The graph as text**, unless there are too many states. -/
def describeDiagram (m : Machine) : Except Unwritable Text := do
  let _ ← m.listStates M.base.stateCount
  return M.diagram.describe

end Amended

end FiniteAutomata
