import FiniteAutomata.Nfa.Amended
import FiniteAutomata.Numeral.Shortest
import FiniteAutomata.Text.Quoted

/-!
# Value — data as it is handed in

Automata are described by data of any shape: numbers, texts, lists, objects, and parts of automata
that have already been read. A `Value` is one such datum and its `Kind` what an error message calls
it. Two values are the *same* (`Value.same`) if they are equal as numbers, truth values counting as
zero and one, or equal otherwise; keys of tables and members of sets are told apart that way.
-/

namespace FiniteAutomata

/-! ## Kinds -/

/-- What sort of thing a value is; `anything` is the sort of every value. -/
inductive Kind where
  | null | bool | int | float | text | list | tuple | object
  | transition | nfa | dfaState | anything
deriving DecidableEq, Repr

/-- The short name of a kind. -/
def Kind.name : Kind → Text
  | .null => "NoneType"
  | .bool => "bool"
  | .int => "int"
  | .float => "float"
  | .text => "str"
  | .list => "list"
  | .tuple => "tuple"
  | .object => "dict"
  | .transition => "Transition"
  | .nfa => "NFA"
  | .dfaState => "DFAState"
  | .anything => "object"

/-- The kind as error messages name it. -/
def Kind.describe (k : Kind) : Text :=
  let path := match k with
    | .transition | .nfa => "nfa2dfa.nfa."
    | .dfaState => "nfa2dfa.dfa."
    | _ => ""
  "<class '" ++ path ++ k.name ++ "'>"

/-! ## Values -/

/-- **A datum**: a scalar, a collection of data, or a part of an automaton that has been read. The
fields of an object are listed once each, in the order in which they were first given. -/
inductive Value where
  | null
  | bool (b : Bool)
  | int (n : Int)
  | float (x : Binary64)
  | text (s : Text)
  | list (items : List Value)
  | tuple (items : List Value)
  | object (fields : List (Text × Value))
  | transition (t : Transition)
  | nfa (N : Nfa)

namespace Value

instance : Inhabited Value := ⟨.null⟩

/-- The kind of a value. -/
def kind : Value → Kind
  | .null => .null
  | .bool _ => .bool
  | .int _ => .int
  | .float _ => .float
  | .text _ => .text
  | .list _ => .list
  | .tuple _ => .tuple
  | .object _ => .object
  | .transition _ => .transition
  | .nfa _ => .nfa

/-- The integer a value is equal to, truth values counting as one and zero. -/
def toInt? : Value → Option Int
  | .bool b => some (if b then 1 else 0)
  | .int n => some n
  | .float x => x.toInt?
  | _ => none

/-- The floating-point number a value is, if it is one but no integer. -/
def toFraction? : Value → Option Binary64
  | .float x => if x.toInt?.isSome then none else some x
  | _ => none

/-! ## Sameness -/

mutual

/-- **The two values are not told apart**: they are equal numbers, or equal otherwise. -/
def same : Value → Value → Bool
  | .null, .null => true
  | .text s, .text t => s == t
  | .list vs, .list ws => sameAll vs ws
  | .tuple vs, .tuple ws => sameAll vs ws
  | .object fs, .object gs => fs.length == gs.length && sameFields fs gs
  | .transition t, .transition u => t == u
  | .nfa N, .nfa M => N == M
  | v, w =>
    match v.toInt?, w.toInt? with
    | some m, some n => m == n
    | _, _ =>
      match v.toFraction?, w.toFraction? with
      | some x, some y => x.same y
      | _, _ => false

/-- The two lists are as long as each other and their members are the same in turn. -/
def sameAll : List Value → List Value → Bool
  | [], [] => true
  | v :: vs, w :: ws => v.same w && sameAll vs ws
  | _, _ => false

/-- Every field of the first list is a field of the second with the same value. -/
def sameFields : List (Text × Value) → List (Text × Value) → Bool
  | [], _ => true
  | (key, v) :: fs, gs =>
    (match gs.find? (fun g => g.1 == key) with
      | some (_, w) => v.same w
      | none => false) && sameFields fs gs

end

/-! ## Values as text -/

/-- The name of a truth value. -/
def truthName (b : Bool) : Text := if b then "True" else "False"

mutual

/-- **The value as it is written inside a list**, if nothing keeps it from being written
(`obstacles`). -/
def quoted : Value → Text
  | .null => "None"
  | .bool b => truthName b
  | .int n => .spell n
  | .float x => x.describe
  | .text s => Text.quoted s
  | .list vs => "[" ++ List.intercalate ", " (quotedAll vs) ++ "]"
  | .tuple [v] => "(" ++ v.quoted ++ ",)"
  | .tuple vs => "(" ++ List.intercalate ", " (quotedAll vs) ++ ")"
  | .object fs => "\x7b" ++ List.intercalate ", " (quotedFields fs) ++ "\x7d"
  | .transition t => t.describe
  | .nfa N => (Amended.ofNfa N).table.render?.getD ""

/-- The members of a list as they are written inside it. -/
def quotedAll : List Value → List Text
  | [] => []
  | v :: vs => v.quoted :: quotedAll vs

/-- The fields of an object as they are written inside it. -/
def quotedFields : List (Text × Value) → List Text
  | [] => []
  | (key, v) :: fs => (Text.quoted key ++ ": " ++ v.quoted) :: quotedFields fs

end

mutual

/-- **What may keep the value from being written out**, part by part. -/
def obstacles : Value → List Obstacle
  | .int n => obstacleOf (unwritableInteger? n)
  | .list vs => obstaclesOfAll vs
  | .tuple vs => obstaclesOfAll vs
  | .object fs => obstaclesOfFields fs
  | .transition t => obstacleOf t.unwritable?
  | .nfa N => (Amended.ofNfa N).obstacles
  | _ => []

/-- What may keep the members of a list from being written out. -/
def obstaclesOfAll : List Value → List Obstacle
  | [] => []
  | v :: vs => v.obstacles ++ obstaclesOfAll vs

/-- What may keep the fields of an object from being written out. -/
def obstaclesOfFields : List (Text × Value) → List Obstacle
  | [] => []
  | (_, v) :: fs => v.obstacles ++ obstaclesOfFields fs

end

/-- The value as it is written on its own: a text stands without quotes. -/
def plain : Value → Text
  | .text s => s
  | v => v.quoted

/-- A list of texts as it is written in a message. -/
def quotedTexts (ss : List Text) : Text := (Value.list (ss.map .text)).quoted

/-! ## Objects -/

/-- The value of a field, or another if there is no such field. -/
def fieldD (fields : List (Text × Value)) (key : Text) (fallback : Value) : Value :=
  match fields.find? (fun f => f.1 == key) with
  | some f => f.2
  | none => fallback

/-- The fields with one set: in its place if there is one with that key, else at the end. -/
def setField (key : Text) (v : Value) : List (Text × Value) → List (Text × Value)
  | [] => [(key, v)]
  | f :: fs => if f.1 == key then (f.1, v) :: fs else f :: setField key v fs

/-- **The fields of an object from entries as they are given**: a later entry with the same key wins
and keeps the earlier place. -/
def mergeFields (entries : List (Text × Value)) : List (Text × Value) :=
  entries.foldl (fun fs f => setField f.1 f.2 fs) []

/-- The values without those that are the same as an earlier one. -/
def distinct (vs : List Value) : List Value :=
  vs.foldl (fun kept v => if kept.any (same · v) then kept else kept ++ [v]) []

end Value

end FiniteAutomata
