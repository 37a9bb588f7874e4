import FiniteAutomata.Json5.Basic
import FiniteAutomata.Layout
import FiniteAutomata.Nfa.MoveTable

/-!
# Source — automata read from texts and files

A description in lines is checked from its beginning to its end and then as a whole: the numerals
part by part, with the symbols after the first of them; then the number of rows; then each row's
label and number of sets; last the automaton itself.

The name of a file decides how it is read: those that end in `.json` or `.json5` hold documents, all
others descriptions in lines of text. A document that is nested too deeply for the machine at hand
is not read, and what a fault in it is depends on the machine too, since the fault may be worded
with a list of states.
-/

namespace FiniteAutomata

/-! ## Descriptions in lines -/

namespace Layout

/-- The word that heads the column of empty moves, which no symbol may be. -/
def emptyMoveWord : Symbol := "lambda"

/-- The number a numeral stands for, unless it is too long. The part of the layout that it stands in
is named then. -/
def number (part : Text) (digits : Digits) : Except Error Nat :=
  if Text.numeralLimit < digits.length then .error (.layoutNumeral part ⟨digits.length⟩)
  else .ok (Text.ofDigits 10 (digits.filterMap Text.basicDigit?))

/-- The symbols, unless one of them is a name of the empty move. -/
def checkSymbols (text : Text) (symbols : List (Symbol × Nat)) : Except Error (List Symbol) :=
  match symbols.find? fun p => p.1 == emptyMoveWord || p.1 == epsilonSign with
  | some (a, rest) => .error (.reservedColumn a (positionOf text rest))
  | none => .ok (symbols.map (·.1))

/-- The sets of a row as numbers. -/
def numberSets (sets : List (List Digits)) : Except Error (List (List Nat)) :=
  sets.mapM fun ns => ns.mapM (number "state_set")

/-- The entries of the table of moves that a row stands for: sets without members have none. -/
def rowEntries (i : Nat) (columns : List Symbol) (sets : List (List Nat)) : List (Value × Value) :=
  (columns.zip sets).filterMap fun p =>
    if p.2.isEmpty then none
    else some (.tuple [.int i, .text p.1], .list (p.2.map fun (n : Nat) => .int n))

/-- The entries of a row, if its label is its number and it has one set for each column. -/
def checkRow (text : Text) (columns : List Symbol) (i : Nat) (r : Row)
    (sets : List (List Nat)) : Except Error (List (Value × Value)) := do
  let place := positionOf text r.labelRest
  if (← number "start" r.label) ≠ i then throw (.rowLabel i r.label place)
  if sets.length ≠ columns.length then
    throw (.setCount i sets.length columns.length place)
  return rowEntries i columns sets

/-- **The automaton a description stands for.** -/
def toNfa (text : Text) (l : Layout) : Except Error Nfa := do
  let declared ← number "header" l.declared
  let symbols ← checkSymbols text l.symbols
  let sets ← l.rows.mapM fun r => numberSets r.sets
  let initial ← number "initial" l.initial
  let accepting ← l.accepting.mapM (number "accepting")
  if l.rows.length ≠ declared then throw (.rowCount declared l.rows.length)
  let columns := symbols ++ [epsilonSign]
  let entries ← (l.rows.zip sets).zipIdx.mapM fun p =>
    checkRow text columns p.2 p.1.1 p.1.2
  Nfa.ofTable (.int declared) (.list (symbols.map .text)) (← MoveTable.ofEntries entries.flatten)
    (.int initial) (.list (accepting.map fun (n : Nat) => .int n))

end Layout

/-- **The automaton that a text describes.** -/
def Nfa.ofLayout (text : Text) : Except Error Nfa := do (← Layout.read text).toNfa text

/-! ## Documents -/

/-- **The value of the document that a text spells.** -/
def Json5.load (text : Text) : Except Error Value := do (← read text).decode

/-- A fault of a document or of an object in it, put as a fault of the document. Others are kept as
they are. -/
def Error.inDocument (e : Error) : Error := if e.isFaultOfValue then document e else e

/-- **The automaton that a document describes.** -/
def Nfa.ofJson5 (m : Machine) (text : Text) : Except Error Nfa :=
  if m.tooDeep text then .error .tooDeep
  else match Json5.load text with
    | .error e => .error (e.raised m).inDocument
    | .ok (.nfa N) => .ok N
    | .ok v => .error (.notAutomaton v.kind)

/-! ## Files -/

/-- The file holds a document, by its name. -/
def holdsDocument (name : Text) : Bool :=
  (".json" : Text).isSuffixOf name || (".json5" : Text).isSuffixOf name

/-- **The automaton in a file** with this name and these bytes. -/
def Nfa.ofFile (m : Machine) (name : Text) (bytes : List UInt8) : Except Error Nfa :=
  match Text.ofFile bytes with
  | .error failure => .error (.undecodable failure)
  | .ok text => if holdsDocument name then ofJson5 m text else ofLayout text

end FiniteAutomata
