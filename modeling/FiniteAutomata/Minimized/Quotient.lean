import FiniteAutomata.Minimized.Basic
import FiniteAutomata.Minimized.Refinement

/-!
# Minimized/Quotient — minimization

States that no word tells apart fall into one class. Classes are numbered as their first members
come up, the sink last; the sink's class is kept only if some state shares it, and a missing move
leads to it then and stays missing otherwise. The moves of a class are those of its first member.
-/

namespace FiniteAutomata

namespace Dfa

/-! ## Classes -/

/-- The first members of the classes so far, and the class of each number so far. -/
structure Classes where
  leaders : List Nat
  classes : List Nat

/-- Puts the next number into the class of the first leader from which it is not told apart, or into
one of its own. -/
def Classes.place (apart : Nat → Nat → Bool) (s : Classes) (j : Nat) : Classes :=
  match s.leaders.findIdx? fun i => !apart i j with
  | some c => ⟨s.leaders, s.classes ++ [c]⟩
  | none => ⟨s.leaders ++ [j], s.classes ++ [s.leaders.length]⟩

/-- **The classes of the numbers below `n`.** -/
def Classes.below (apart : Nat → Nat → Bool) (n : Nat) : Classes :=
  (List.range n).foldl (place apart) ⟨[], []⟩

variable {σ : Type} (D : Dfa σ)

/-- The class of the sink, if some state shares it. -/
def sinkClass? (s : Classes) : Option Nat :=
  let c := s.classes.getD D.sink 0
  if (s.classes.take D.size).contains c then some c else none

/-- The leaders of the classes that are kept: those that are states. -/
def keptLeaders (s : Classes) : List Nat := s.leaders.filter (· < D.size)

/-- The class a target belongs to. -/
def project (s : Classes) : Option Nat → Option Nat
  | some t => some (s.classes.getD t 0)
  | none => D.sinkClass? s

variable [Identity σ]

/-- The automaton of the classes. -/
def quotient (s : Classes) : Minimized Nat where
  alphabet := D.alphabet
  classAssignment := s.classes.take D.size
  rows := (D.keptLeaders s).map fun i =>
    D.alphabet.symbols.map fun a => (.text a, D.project s (D.target i a))
  accepting := ((D.keptLeaders s).zipIdx.filter fun p => D.isAccepting p.1).map (·.2)

/-- The classes of states that no word tells apart, the sink among them. -/
def classes : Classes :=
  let marks := D.refinement.marks
  Classes.below marks.has (D.size + 1)

/-- **The automaton with one class for all states that no word tells apart.** -/
def minimize : Minimized Nat := D.quotient D.classes

end Dfa

end FiniteAutomata
