import FiniteAutomata.Dfa.Assembly

/-!
# Minimized/Basic — the automaton of classes

A `Minimized` automaton has classes in place of states: it says which class each state belongs to,
which class each class leads to on a symbol, and which classes accept. Minimization names the
classes by their numbers. Such an automaton can also be put together from any values, so looking
something up in it may fail; in the automata that minimization makes it never does.
-/

namespace FiniteAutomata

/-- **Names of classes.** Each is a value, by which it is told apart and looked up. -/
class ClassName (κ : Type) where
  toValue : κ → Value

instance : ClassName Nat := ⟨fun n => .int n⟩

instance : ClassName Value := ⟨id⟩

/-- **An automaton of classes**, started in class zero. -/
structure Minimized (κ : Type) where
  alphabet : Alphabet
  /-- The class of each state. -/
  classAssignment : List κ
  /-- The targets of each class as they are listed, no two of them under the same key. -/
  rows : List (List (Value × Option κ))
  /-- The classes that accept, each once. -/
  accepting : List κ

namespace Minimized

open ClassName

variable {κ : Type} (M : Minimized κ)

/-- The number of classes. -/
def classCount : Nat := M.rows.length

/-! ## Looking moves up -/

/-- The listed targets of a class. -/
def rowOf (c : Value) : Except Error (List (Value × Option κ)) := do
  let i ← c.toPlace M.rows.length
  return M.rows[i]

/-- The target under a key in listed targets. -/
def targetIn (row : List (Value × Option κ)) (key : Value) : Except Error (Option κ) :=
  match row.find? fun e => e.1.same key with
  | some e => .ok e.2
  | none => .error (.missingKey key)

/-- **The target of a class on a symbol**, if it has one. -/
def query (c a : Value) : Except Error (Option κ) := do
  let row ← M.rowOf c
  a.checkHashable
  targetIn row a

/-- The targets of a class in the order of the alphabet. -/
def row (c : Value) : Except Error (List (Option κ)) :=
  M.alphabet.symbols.mapM fun a => M.query c (.text a)

/-- The targets of all classes. -/
def allRows : Except Error (List (List (Option κ))) :=
  (List.range M.classCount).mapM fun (c : Nat) => M.row (.int c)

variable [ClassName κ]

/-! ## Classes -/

/-- The states of a class. -/
def classMembers (c : Value) : List Nat :=
  (M.classAssignment.zipIdx.filter fun p => (toValue p.1).same c).map (·.2)

/-- The class is among those that accept. -/
def isAmongAccepting (c : Value) : Bool := M.accepting.any fun d => (toValue d).same c

/-- **The class accepts.** -/
def isAccepting (c : Value) : Except Error Bool := do
  c.checkHashable
  return M.isAmongAccepting c

/-- The accepting classes in ascending order, if they have one. -/
def acceptStates : Except Error (List Value) := Value.sorted (M.accepting.map toValue)

/-! ## Words -/

/-- The word is accepted from a class: a symbol outside the alphabet rejects, and so does a missing
move. -/
def acceptsFrom (c : Value) : List Symbol → Except Error Bool
  | [] => M.isAccepting c
  | a :: w =>
    if a ∈ M.alphabet then do
      match ← M.query c (.text a) with
      | some d => acceptsFrom (toValue d) w
      | none => return false
    else .ok false

/-- **The automaton accepts the word.** -/
def accepts (w : List Symbol) : Except Error Bool := M.acceptsFrom (.int 0) w

/-! ## As an automaton with states -/

/-- A target as a value. -/
def targetValue : Option κ → Value
  | some t => toValue t
  | none => .null

/-- **The automaton whose states are the classes.** -/
def toDfa : Except Error (Dfa StateSet) := do
  let rows ← M.allRows
  let accepting ← M.acceptStates
  Dfa.ofTable (.list (rows.map fun row => .list (row.map targetValue))) (.list accepting)
    (.list (M.alphabet.symbols.map .text))

end Minimized

end FiniteAutomata
