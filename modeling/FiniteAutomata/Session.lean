import FiniteAutomata.Conversion
import FiniteAutomata.Document
import FiniteAutomata.Lookup

/-!
# Session — an automaton used again and again

An automaton that has been built is asked for moves, checked, converted and written out, in any
order, and transitions may be added to its list in between. `Amended.run` goes through such
operations in turn: each has an answer, and only the adding of a transition leaves another automaton
behind.
-/

namespace FiniteAutomata

/-- **What is done with an automaton**: one more transition is listed, or something is asked. -/
inductive Operation where
  | append (t : Transition)
  | validate
  | query (s a : Value)
  | move (states a : Value)
  | closure (seed : Value)
  | accepts (w : List Symbol)
  | construct (limit : Value)
  | convert (limit : Value)
  | transitions
  | columns
  | write
  | draw
  | diagram

/-- **What an operation answers.** -/
inductive Answer where
  | length (n : Nat)
  | check (r : Except Error Unit)
  | states (r : Except Error StateSet)
  | verdict (b : Bool)
  | automaton (r : Except Error (Dfa StateSet))
  | conversion (r : Except Error Conversion)
  | transitions (ts : List Transition)
  | symbols (as : List Symbol)
  | value (v : Value)
  | text (r : Except Error Text)

namespace Amended

/-- The answer of an operation on a machine. -/
def answer (m : Machine) (M : Amended) : Operation → Answer
  | .append t => .length (M.append t).transitions.length
  | .validate => .check M.validate
  | .query s a => .states (M.base.queryValue s a)
  | .move states a => .states (M.base.moveValue states a)
  | .closure seed => .states (M.base.closureValue seed)
  | .accepts w => .verdict (M.base.accepts w)
  | .construct limit => .automaton (M.base.toDfa limit)
  | .convert limit => .conversion (M.convert limit)
  | .transitions => .transitions M.transitions
  | .columns => .symbols M.columns
  | .write => .value M.toValue
  | .draw => .text (M.draw m)
  | .diagram => .text (ofWritten (M.describeDiagram m))

/-- The automaton that an operation leaves behind. -/
def after (M : Amended) : Operation → Amended
  | .append t => M.append t
  | _ => M

/-- **The answers of operations in turn, and the automaton that the last leaves behind.** -/
def run (m : Machine) (M : Amended) : List Operation → List Answer × Amended
  | [] => ([], M)
  | o :: os => (M.answer m o :: ((M.after o).run m os).1, ((M.after o).run m os).2)

end Amended

end FiniteAutomata
