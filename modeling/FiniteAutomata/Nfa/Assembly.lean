import FiniteAutomata.Check

/-!
# Nfa/Assembly — automata put together from values

Alphabets, transitions and automata are made from values of any kind. Each maker checks its parts in
a fixed order and names the first fault; what it returns carries the proof that the parts fit, so
there is nothing left to go wrong later.
-/

namespace FiniteAutomata

/-! ## Alphabets -/

/-- **The alphabet with these symbols**, unless one is reserved or repeated. -/
def Alphabet.ofSymbols (symbols : List Symbol) : Except Error Alphabet :=
  let requested := symbols.map Value.text
  if he : epsilonSign ∈ symbols then .error (.malformed (.reservedSymbol requested))
  else if hn : ("" : Symbol) ∈ symbols then .error (.malformed (.reservedSymbol requested))
  else if hd : symbols.Nodup then .ok ⟨symbols, hd, he, hn⟩
  else .error (.malformed (.repeatedSymbol requested))

/-- One of the requested symbols: a text that is not reserved. -/
def Alphabet.checkSymbol (requested : List Value) (v : Value) : Except Error Symbol := do
  let a ← v.checkText "Alphabet.symbol"
  if a = epsilonSign ∨ a = "" then throw (.ofMalformed (.reservedSymbol requested)) else return a

/-- The alphabet with the members of a collection as symbols. -/
def Alphabet.ofValue (v : Value) : Except Error Alphabet := do
  let requested ← v.members
  let symbols ← requested.mapM (checkSymbol requested)
  ofSymbols symbols

/-! ## Transitions -/

/-- **The transition on these inputs.** The sign of the empty move stands for no inputs, and only
alone. -/
def Transition.ofInputs (source target : State) (inputs : List Symbol) : Except Error Transition :=
  if inputs = [epsilonSign] then .ok ⟨source, target, [], by simp⟩
  else if h : epsilonSign ∈ inputs then .error (.malformed (.epsilonAmongInputs inputs))
  else .ok ⟨source, target, inputs, h⟩

/-- The transition with these parts. -/
def Transition.ofValues (source target inputs : Value) : Except Error Transition := do
  let s ← source.checkInt "Transition.current"
  let t ← target.checkInt "Transition.target"
  inputs.checkArray .text .list "Transition.inputs" true
  let texts ← (← inputs.members).mapM fun v => v.checkText "Transition.inputs[]"
  ofInputs s t texts

/-- **The transition, if it belongs to an automaton** with `n` states over `A`. -/
def Transition.fit (n : Nat) (A : Alphabet) (t : Transition) :
    Except Error { t : Transition // t.Fits n A } :=
  if hs : InRange n t.source then
    if ht : InRange n t.target then
      match hi : t.inputs.find? fun a => decide (a ∉ A) with
      | none => .ok ⟨t, hs, ht, by simpa using hi⟩
      | some a => .error (.ofMalformed (.inputOutside t a A))
    else .error (.ofMalformed (.noSuchState "Transition.target" t.target (.int n)))
  else .error (.ofMalformed (.noSuchState "Transition.current" t.source (.int n)))

/-- The transition in a list of transitions, if it belongs to the automaton. -/
def Transition.ofMember (n : Nat) (A : Alphabet) (v : Value) :
    Except Error { t : Transition // t.Fits n A } :=
  match v with
  | .transition t => t.fit n A
  | _ => .error (.malformed (.wrongKind "transitions[]" .transition v.kind))

/-! ## Automata -/

/-- The number of states, which is positive. -/
def Nfa.checkCount (v : Value) : Except Error Nat := do
  let n ← v.checkInt "state_count"
  if n ≤ 0 then throw (.ofMalformed (.countNotPositive n)) else return n.toNat

/-- **The automaton with these parts.** The collections are gone through first, then the number of
states, the start state, the accepting states and the transitions are checked in turn. -/
def Nfa.ofValues (count alphabet transitions start accepting : Value) : Except Error Nfa := do
  let A ← Alphabet.ofValue alphabet
  let listed ← transitions.members
  let marked ← accepting.distinctMembers
  let n ← checkCount count
  let q ← start.checkState n "start_state"
  let F ← marked.mapM fun v => v.checkState n "accept_states"
  let ts ← listed.mapM (Transition.ofMember n A)
  return {
    stateCount := n
    alphabet := A
    transitions := ts.map (·.1)
    start := q.1
    accepting := .ofList (F.map (·.1))
    start_inRange := q.2
    accepting_inRange := by
      intro s hs
      obtain ⟨p, _, rfl⟩ := List.mem_map.mp (StateSet.mem_ofList.mp hs)
      exact p.2
    transitions_fit := by
      intro t ht
      obtain ⟨p, _, rfl⟩ := List.mem_map.mp ht
      exact p.2 }

/-- Checks all listed transitions of an amended automaton. -/
def Amended.validate (M : Amended) : Except Error Unit :=
  M.transitions.forM fun t => do
    let _ ← t.fit M.base.stateCount M.base.alphabet

end FiniteAutomata
