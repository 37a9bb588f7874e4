import FiniteAutomata.Nfa.Assembly

/-!
# Document — automata written as nested objects

An automaton is written as an object with its parts as fields, its transitions as objects inside it
(`Nfa.toValue`). Reading goes the other way (`Document.decode`): every object is read as the
transition or automaton that its type names, the innermost first, so that an automaton finds its
transitions already read.
-/

namespace FiniteAutomata

/-! ## Writing -/

/-- A list of texts as a value. -/
def Value.ofTexts (ss : List Text) : Value := .list (ss.map .text)

/-- A transition as an object. -/
def Transition.toValue (t : Transition) : Value :=
  .object [("type", .text "Transition"), ("current", .int t.source), ("target", .int t.target),
    ("inputs", .ofTexts t.inputs)]

/-- An automaton as an object, with all its listed transitions. -/
def Amended.toValue (M : Amended) : Value :=
  .object [("type", .text "NFA"), ("state_count", .int M.base.stateCount),
    ("start_state", .int M.base.start),
    ("accept_states", .list (M.base.accepting.elems.map .int)),
    ("inputs", .ofTexts M.base.alphabet.symbols),
    ("transitions", .list (M.transitions.map (·.toValue)))]

/-- **An automaton as an object.** -/
def Nfa.toValue (N : Nfa) : Value := (Amended.ofNfa N).toValue

/-! ## Reading one object -/

/-- The transition with these fields. Without inputs it is an empty move. -/
def Transition.ofFields (fields : List (Text × Value)) : Except Error Transition :=
  ofValues (Value.fieldD fields "current" .null) (Value.fieldD fields "target" .null)
    (Value.fieldD fields "inputs" (.list []))

/-- The automaton with these fields. Their kinds are checked before its parts are. -/
def Nfa.ofFields (fields : List (Text × Value)) : Except Error Nfa := do
  let count := Value.fieldD fields "state_count" .null
  let start := Value.fieldD fields "start_state" .null
  let accepting := Value.fieldD fields "accept_states" (.list [])
  let inputs := Value.fieldD fields "inputs" .null
  let transitions := Value.fieldD fields "transitions" (.list [])
  count.checkKind .int "state_count"
  start.checkKind .int "start_state"
  accepting.checkArray .int .list "accept_states" true
  inputs.checkArray .text .list "inputs" false
  transitions.checkArray .transition .list "transitions" true
  ofValues count inputs transitions start accepting

/-- **The transition or automaton that an object is**, as its type says. -/
def Value.ofObject (fields : List (Text × Value)) : Except Error Value :=
  let tag := fieldD fields "type" .null
  if tag.same (.text "Transition") then do return .transition (← Transition.ofFields fields)
  else if tag.same (.text "NFA") then do return .nfa (← Nfa.ofFields fields)
  else .error (.ofMalformed (.unknownType tag))

/-! ## Reading documents -/

/-- **A document before its objects have been read.** The entries of an object are listed as they
are written, a key perhaps more than once. -/
inductive Document where
  | leaf (v : Value)
  /-- A numeral that stands for no number. -/
  | faulty (fault : NumeralFault)
  | array (items : List Document)
  | object (entries : List (Text × Document))

namespace Document

mutual

/-- **The value of a document**, every object read as what its type says, in the order in which the
objects end. -/
def decode : Document → Except Error Value
  | .leaf v => .ok v
  | .faulty fault => .error (.numeral fault)
  | .array items => do return .list (← decodeItems items)
  | .object entries => do Value.ofObject (Value.mergeFields (← decodeEntries entries))

/-- The values of the items of an array. -/
def decodeItems : List Document → Except Error (List Value)
  | [] => .ok []
  | d :: ds => do
    let v ← decode d
    return v :: (← decodeItems ds)

/-- The values of the entries of an object. -/
def decodeEntries : List (Text × Document) → Except Error (List (Text × Value))
  | [] => .ok []
  | (key, d) :: es => do
    let v ← decode d
    return (key, v) :: (← decodeEntries es)

end

mutual

/-- A value as a document: its lists and objects are taken apart, all else is kept. -/
def ofValue : Value → Document
  | .list vs => .array (ofValues vs)
  | .object fs => .object (ofFields fs)
  | v => .leaf v

/-- Values as documents. -/
def ofValues : List Value → List Document
  | [] => []
  | v :: vs => ofValue v :: ofValues vs

/-- Fields as entries. -/
def ofFields : List (Text × Value) → List (Text × Document)
  | [] => []
  | (key, v) :: fs => (key, ofValue v) :: ofFields fs

end

end Document

end FiniteAutomata
