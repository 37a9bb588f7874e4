import FiniteAutomata.Dfa.Basic
import FiniteAutomata.Minimized.Marks

/-!
# Minimized/Refinement — which states some word tells apart

The states of a deterministic automaton are compared in pairs, together with a sink that stands for
the missing moves: it comes after all states, rejects, and leads to itself. First the pairs are
marked of which one accepts and the other does not. Then the pairs are gone through again and again:
one is marked if some symbol leads it to a marked pair, at once, so that later pairs of the same
pass see it. It ends with the first pass that marks nothing.
-/

namespace FiniteAutomata

/-- **A pair that was marked**: in which pass, the two states, and the symbol on which they part. -/
structure Split where
  pass : Nat
  first : Nat
  second : Nat
  symbol : Symbol
deriving DecidableEq, Repr

/-- The pairs `i < j` of numbers below `n`, in lexicographic order. -/
def pairsBelow (n : Nat) : List (Nat × Nat) :=
  (List.range n).flatMap fun i => ((List.range n).filter (i < ·)).map fun j => (i, j)

namespace Dfa

variable {σ : Type} (D : Dfa σ)

/-- The number of the sink. -/
def sink : Nat := D.size

/-- The target of a state on a symbol, the sink for a missing one. -/
def targetOrSink (i : Nat) (a : Symbol) : Nat := (D.target i a).getD D.sink

/-- For each state and the sink, the targets on all symbols. -/
def targetRows : Array (Array Nat) :=
  ((List.range (D.size + 1)).map fun i =>
    (D.alphabet.symbols.map (D.targetOrSink i)).toArray).toArray

/-- Marks of pairs of states, the sink among them. -/
abbrev StateMarks := Marks (D.size + 1)

/-- The first symbol on which two states, whose targets are given, lead to a marked pair. -/
def partingSymbol? (marks : D.StateMarks) (p q : Array Nat) : Option Symbol :=
  (D.alphabet.symbols.zipIdx.find? fun e =>
    let t := p.getD e.2 D.sink
    let u := q.getD e.2 D.sink
    t != u && marks.has t u).map (·.1)

/-- Marks and splits in the course of a pass, the newest split first. -/
structure Progress where
  marks : D.StateMarks
  splits : List Split

/-- Marks one pair if it is not marked and some symbol leads it to a marked pair. -/
def tryPair (rows : Array (Array Nat)) (pass : Nat) (s : D.Progress) (p : Nat × Nat) : D.Progress :=
  if s.marks.has p.1 p.2 then s
  else match D.partingSymbol? s.marks (rows.getD p.1 #[]) (rows.getD p.2 #[]) with
    | some a => ⟨s.marks.mark p.1 p.2, ⟨pass, p.1, p.2, a⟩ :: s.splits⟩
    | none => s

/-- One pass over all pairs. -/
def pass (rows : Array (Array Nat)) (k : Nat) (s : D.Progress) : D.Progress :=
  (pairsBelow (D.size + 1)).foldl (D.tryPair rows k) s

/-- **What the comparison of all pairs has come to**: the marks, the pairs marked in passes, in the
order in which they were marked, and the number of passes. -/
structure Refinement where
  marks : D.StateMarks
  splits : List Split
  passes : Nat

/-- Passes from the `k`-th on, at most so many more, until one marks nothing. -/
def passesFrom (rows : Array (Array Nat)) : Nat → Nat → D.Progress → D.Refinement
  | 0, k, s => ⟨s.marks, s.splits.reverse, k⟩
  | fuel + 1, k, s =>
    let t := D.pass rows k s
    if t.splits.length = s.splits.length then ⟨t.marks, t.splits.reverse, k⟩
    else passesFrom rows fuel (k + 1) t

variable [Identity σ]

/-- The pairs of which one accepts and the other does not. -/
def initialMarks : D.StateMarks :=
  (pairsBelow (D.size + 1)).foldl
    (fun m p => if D.isAccepting p.1 != D.isAccepting p.2 then m.mark p.1 p.2 else m) .none

/-- **The comparison of all pairs of states.** Every pass but the last marks a pair, so there are no
more passes than pairs and one. -/
def refinement : D.Refinement :=
  D.passesFrom D.targetRows (pairsBelow (D.size + 1)).length 1 ⟨D.initialMarks, []⟩

end Dfa

end FiniteAutomata
