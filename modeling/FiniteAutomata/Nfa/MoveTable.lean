import FiniteAutomata.Nfa.Assembly

/-!
# Nfa/MoveTable — automata given by a table of moves

A move table lists targets under keys that pair a state with a symbol, the sign of the empty move
among them. Its entries are regrouped into transitions: all symbols on which a state leads to the
same target become the inputs of one transition, and every empty move one of its own.
-/

namespace FiniteAutomata

/-- **A table of moves**: keys, no two of them the same, and a collection of targets for each. -/
abbrev MoveTable := List (Value × Value)

namespace MoveTable

/-- The table with one entry set: the targets replace those under a key that is the same, which
keeps its place, and come last otherwise. -/
def set (key targets : Value) : MoveTable → MoveTable
  | [] => [(key, targets)]
  | e :: es => if e.1.same key then (e.1, targets) :: es else e :: set key targets es

/-- The table with these entries, entered in turn. -/
def ofEntries (entries : List (Value × Value)) : Except Error MoveTable := do
  entries.forM fun e => e.1.checkHashable
  return entries.foldl (fun table e => table.set e.1 e.2) []

/-- A key is a pair. -/
def splitKey (key : Value) : Except Error (Value × Value) :=
  match key with
  | .tuple [s, a] => .ok (s, a)
  | _ => .error (.ofMalformed (.tableKey key))

/-- The distinct targets of an entry in ascending order. -/
def targetsOf (v : Value) : Except Error (List State) := do
  let distinct ← v.distinctMembers
  let states ← distinct.mapM fun t => t.checkInt "trans_table[]"
  return (StateSet.ofList states).elems

/-- A transition that is being put together: its source, its target, and the inputs so far. -/
structure Edge where
  source : Value
  target : State
  inputs : List Value

/-- The edges with one more input between a source and a target. -/
def addInput (s : Value) (t : State) (a : Value) : List Edge → List Edge
  | [] => [⟨s, t, [a]⟩]
  | e :: es =>
    if e.source.same s && e.target == t then { e with inputs := e.inputs ++ [a] } :: es
    else e :: addInput s t a es

/-- Edges that are read from an entry: those with inputs, and the empty moves. -/
structure Edges where
  labelled : List Edge
  empty : List Edge

/-- The edges with those of one more entry. -/
def addEntry (edges : Edges) (key : Value × Value) (targets : List State) : Edges :=
  if key.2.same (.text epsilonSign) then
    { edges with empty := edges.empty ++ targets.map fun t => ⟨key.1, t, []⟩ }
  else
    { edges with
      labelled := targets.foldl (fun es t => addInput key.1 t key.2 es) edges.labelled }

/-- **The transitions a table stands for**, the empty moves last. -/
def transitions (table : List ((Value × Value) × Value)) : Except Error (List Transition) := do
  let edges ← table.foldlM
    (fun edges e => do return addEntry edges e.1 (← targetsOf e.2)) (⟨[], []⟩ : Edges)
  (edges.labelled ++ edges.empty).mapM fun e =>
    Transition.ofValues e.source (.int e.target) (.list e.inputs)

end MoveTable

/-- **The automaton given by a table of moves.** -/
def Nfa.ofTable (count alphabet : Value) (table : MoveTable) (start accepting : Value) :
    Except Error Nfa := do
  let entries ← table.mapM fun e => do return (← MoveTable.splitKey e.1, e.2)
  let ts ← MoveTable.transitions entries
  ofValues count alphabet (.list (ts.map .transition)) start accepting

end FiniteAutomata
