import FiniteAutomata.Lookup
import FiniteAutomata.Minimized.Basic

/-!
# Tables — automata as boxed tables

Every automaton is shown as a table of its moves, with a column for each symbol. The columns have
headings of their own besides the symbols, so a table cannot be drawn when a symbol is spelled like
one of them, and only then.
-/

namespace FiniteAutomata

/-- **A table drawn**, its rows worked out once its headings are found to be distinct. -/
def drawTable (columns : List Text) (rightFirst : Bool)
    (rows : Except Error (List (List Text))) : Except Error Text :=
  if columns.Nodup then do
    match (Table.mk columns rightFirst (← rows)).render? with
    | some s => return s
    | none => throw (.unwritable .repeatedHeading)
  else .error (.unwritable .repeatedHeading)

/-- A text, or why there is none. -/
def ofWritten (s : Except Unwritable Text) : Except Error Text := s.mapError .unwritable

/-- The table of a nondeterministic automaton. -/
def Amended.draw (M : Amended) (m : Machine) : Except Error Text := ofWritten (M.describe m)

/-- The start state, and the accepting states below it. -/
def startAndAccepting (start : Text) (accepting : List Text) : Text :=
  let listed := commaList accepting
  start ++ ": Initial State\n" ++ (if listed.isEmpty then emptySetSign else listed)
    ++ ": Accepting State(s)"

/-- A table of moves with numbered rows, and the start state and the accepting states below it. -/
def drawMoves (A : Alphabet) (rows : Except Error (List (List Text)))
    (accepting : Except Error (List Text)) : Except Error Text := do
  let table ← drawTable ("Sigma" :: A.symbols) true do
    return (← rows).zipIdx.map fun p => (.spell p.2 ++ ":") :: p.1
  return table ++ "\n" ++ startAndAccepting "0" (← accepting)

namespace Dfa

variable {σ : Type} [Identity σ] (D : Dfa σ)

/-- The targets of all states. -/
def allRows : List (List (Option Int)) :=
  (List.range D.size).map fun i => (D.row i).map fun o => o.map Int.ofNat

/-- The table of a deterministic automaton. -/
def draw : Except Error Text :=
  drawTable ("STATE" :: D.alphabet.symbols) true <| .ok <|
    D.allRows.zipIdx.map fun p =>
      marked (p.2 == 0) (D.isAccepting p.2) (.spell p.2) :: p.1.map targetName

/-- The table of moves, with the start state and the accepting states below it. -/
def drawListing : Except Error Text :=
  drawMoves D.alphabet (.ok (D.allRows.map (·.map targetName))) (.ok (D.acceptStates.map .spell))

/-- The table of the sets that the states stand for. -/
def drawIdentities (m : Machine) : Except Error Text :=
  drawTable ["DFA STATE", "NFA STATES"] false <|
    D.states.zipIdx.mapM fun p => do return [.spell p.2, ← Identity.describe m p.1.identity]

/-- The table of the subset construction: sets, their numbers, and moves. -/
def drawSubsets (D : Dfa StateSet) : Except Error Text :=
  drawTable ("NFA STATE" :: "DFA STATE" :: D.alphabet.symbols) false <|
    (D.states.zip D.allRows).zipIdx.mapM fun p => do
      return (← p.1.1.identity.describe) :: .spell p.2 :: p.1.2.map targetName

end Dfa

namespace Minimized

open ClassName

variable {κ : Type} [ClassName κ] (M : Minimized κ)

/-- A target as text, or the sign of the empty set for a missing one. -/
def targetText : Option κ → Text
  | some t => (toValue t).plain
  | none => emptySetSign

/-- The texts of the targets of all classes. -/
def targetTexts : Except Error (List (List Text)) := do
  return (← M.allRows).map (·.map targetText)

/-- The table of an automaton of classes, with the states of each class. -/
def draw : Except Error Text :=
  drawTable ("CLASS" :: "DFA STATES" :: M.alphabet.symbols) true do
    return (← M.targetTexts).zipIdx.map fun p =>
      let c : Value := .int p.2
      marked (p.2 == 0) (M.isAmongAccepting c) (.spell p.2)
        :: braced ((M.classMembers c).map .spell) :: p.1

/-- The table of moves with the start class and the accepting classes below it, and on demand the
table of the classes of states. -/
def drawListing (mapping : Bool) : Except Error Text := do
  let listing ← drawMoves M.alphabet M.targetTexts do
    return (← M.acceptStates).map Value.plain
  if mapping then
    let classes ← drawTable ["DFA STATE", "MINIMIZED STATE"] false <| .ok <|
      M.classAssignment.zipIdx.map fun p => [.spell p.2, (toValue p.1).plain]
    return listing ++ "\n" ++ classes
  else return listing

end Minimized

/-! ## Diagrams -/

/-- The diagram of a deterministic automaton. -/
def Dfa.diagram {σ : Type} [Identity σ] (D : Dfa σ) : Diagram where
  name := "dfa"
  nodes := (List.range D.size).map fun i => (.spell i, D.isAccepting i)
  start := "0"
  edges := D.states.zipIdx.flatMap fun p => p.1.targets.filterMap fun e =>
    e.2.map fun t => ⟨.spell p.2, .spell t, some e.1⟩

namespace Minimized

/-- The label that a key gives to an edge: a text, or none. -/
def labelOf (key : Value) : Except Error (Option Text) :=
  match key with
  | .null => .ok none
  | .text s => .ok (some s)
  | v => .error (.misuse (.label v.kind))

variable {κ : Type} [ClassName κ] (M : Minimized κ)

/-- The edges of listed targets. -/
def edgesOf (c : Nat) : List (Value × Option κ) → Except Error (List Diagram.Edge)
  | [] => .ok []
  | (_, none) :: es => edgesOf c es
  | (key, some t) :: es => do
    let label ← labelOf key
    return ⟨.spell c, (ClassName.toValue t).plain, label⟩ :: (← edgesOf c es)

/-- The diagram of an automaton of classes. -/
def diagram : Except Error Diagram := do
  let edges ← M.rows.zipIdx.mapM fun p => edgesOf p.2 p.1
  return {
    name := "min_dfa"
    nodes := (List.range M.classCount).map fun (c : Nat) =>
      (.spell c, M.isAmongAccepting (.int c))
    start := "0"
    edges := edges.flatten }

end Minimized

end FiniteAutomata
