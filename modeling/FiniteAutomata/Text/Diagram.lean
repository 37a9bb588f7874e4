import FiniteAutomata.Text.Lines

/-!
# Text/Diagram — graph descriptions

A `Diagram` is a directed graph with named nodes, some of them ringed twice, an arrow into the
start node and labelled edges. `Diagram.describe` writes it in the DOT language. A text is written
bare where that language takes it for an identifier, a number or marked-up text, and between double
quotes elsewhere.
-/

namespace FiniteAutomata

/-- An edge from its tail to its head, perhaps with a label. -/
structure Diagram.Edge where
  tail : Text
  head : Text
  label : Option Text
deriving DecidableEq, Repr

/-- **A directed graph** with a start node. -/
structure Diagram where
  name : Text
  /-- The nodes, and whether each is ringed twice. -/
  nodes : List (Text × Bool)
  start : Text
  edges : List Diagram.Edge
deriving DecidableEq, Repr

namespace Diagram

/-- An ASCII letter or the low line. -/
def isNameStart (c : CodePoint) : Bool := c.isAlpha || c == '_'

/-- A letter, a digit or the low line, beginning with no digit. -/
def isName : Text → Bool
  | [] => false
  | c :: cs => isNameStart c && cs.all fun d => isNameStart d || d.isDigit

/-- Digits, or digits and a point with any digits after it, or a point and some digits. -/
def isUnsigned (s : Text) : Bool :=
  let whole := s.takeWhile CodePoint.isDigit
  match s.dropWhile CodePoint.isDigit with
  | [] => !whole.isEmpty
  | '.' :: fraction => fraction.all CodePoint.isDigit && !(whole.isEmpty && fraction.isEmpty)
  | _ => false

/-- A number, perhaps with a minus sign. -/
def isNumber : Text → Bool
  | '-' :: s => isUnsigned s
  | s => isUnsigned s

/-- The words of the language, which are no names in any case. -/
def reserved : List Text := ["node", "edge", "graph", "digraph", "subgraph", "strict"]

/-- The list without a line feed at its end. -/
def dropFinalFeed (s : Text) : Text :=
  if s.getLast? = some (.char '\n') then s.dropLast else s

/-- Marked-up text stands between angle brackets. -/
def isMarkup : Text → Bool
  | '<' :: s => (dropFinalFeed s).getLast? == some (.char '>') || s.getLast? == some (.char '>')
  | _ => false

/-- The text needs no quotes. A line feed at its end makes no difference, except to a reserved
word. -/
def isBare (s : Text) : Bool :=
  isMarkup s ||
    ((isName (dropFinalFeed s) || isNumber (dropFinalFeed s))
      && decide (s.map CodePoint.toLower ∉ reserved))

/-- So many backslashes. -/
def backslashes (n : Nat) : Text := List.replicate n '\\'

/-- The text with a backslash before every double quote: of the backslashes that already stand
there, only pairs are kept. The first argument counts the backslashes just read. -/
def escapeQuotes : Nat → Text → Text
  | run, [] => backslashes run
  | run, c :: s =>
    if c = '\\' then escapeQuotes (run + 1) s
    else if c = '"' then backslashes (run / 2 * 2) ++ ("\\\"" : Text) ++ escapeQuotes 0 s
    else backslashes run ++ c :: escapeQuotes 0 s

/-- A text as the language writes it. -/
def word (s : Text) : Text :=
  if isBare s then s else "\"" ++ escapeQuotes 0 s ++ "\""

/-- The end of an edge: a node, perhaps with a port of it and a point of the compass, between
colons. -/
def endpoint (s : Text) : Text :=
  let (node, rest) := Text.breakAt ':' s
  let (port, compass) := Text.breakAt ':' rest
  List.intercalate ":" ([word node] ++ (if rest = [] then [] else [word port])
    ++ if compass = [] then [] else [compass])

/-- An edge as one statement. -/
def Edge.describe (e : Edge) : Text :=
  let label := match e.label with
    | some l => "label=" ++ word l ++ " "
    | none => ""
  "\t" ++ endpoint e.tail ++ " -> " ++ endpoint e.head ++ " [" ++ label ++ "arrowsize=0.5]\n"

/-- A node as one statement. -/
def describeNode (name : Text) (ringed : Bool) : Text :=
  "\t" ++ word name ++ " [label=" ++ word name ++ " shape="
    ++ (if ringed then "doublecircle" else "circle") ++ "]\n"

/-- **The graph in the DOT language**, one statement a line. -/
def describe (d : Diagram) : Text :=
  "digraph " ++ word d.name ++ " \x7b\n\tgraph [rankdir=LR]\n\tvnode [label=\"\" shape=none]\n"
    ++ List.flatten (d.nodes.map fun p => describeNode p.1 p.2)
    ++ Edge.describe ⟨"vnode", d.start, some "start"⟩
    ++ List.flatten (d.edges.map Edge.describe) ++ "\x7d\n"

end Diagram

end FiniteAutomata
