import FiniteAutomata.Text.Utf8
import FiniteAutomata.Value

/-!
# Error — why something is refused, and how that is put into words

Errors are told apart by their cause: a *malformed* automaton, a fault in a *description* of one (at
a position, where it has one), a *limit* that was passed, a *misuse* of a value that is of the wrong
kind for what was asked of it, and a few others. `Error.message` words them all.

An error whose wording cannot be written out never comes up: what keeps it from being written is the
error instead (`Error.after`). Where the wording needs a list of states, it depends on the machine
which of the two comes up (`Error.raised`).
-/

namespace FiniteAutomata

/-- A place in a text. Lines and columns count from one; an unknown place has negative ones. -/
structure Position where
  line : Int
  column : Int
deriving DecidableEq, Repr

/-- The position of what has none. -/
def Position.unknown : Position := ⟨-1, -1⟩

/-- A message with the position in front of it, if that is known. -/
def Position.tell (p : Position) (message : Text) : Text :=
  if 0 ≤ p.line then
    "line " ++ .spell p.line ++ ", column " ++ .spell p.column ++ ": " ++ message
  else message

/-- Why parts do not make up an automaton. -/
inductive Malformed where
  | reservedSymbol (requested : List Value)
  | repeatedSymbol (requested : List Value)
  | wrongKind (field : Text) (wanted found : Kind)
  | emptyField (field : Text)
  | noSuchState (field : Text) (state : Int) (count : Value)
  | countNotPositive (count : Int)
  | epsilonAmongInputs (inputs : List Symbol)
  | inputOutside (t : Transition) (a : Symbol) (A : Alphabet)
  | tableKey (key : Value)
  | unknownType (tag : Value)
  | noStates
  /-- Two states stand for the set with these members. -/
  | sharedIdentity (first second : Nat) (identity : List Value)
  | rowInputs (state : Nat) (given : List Value)
  | rowLength (row given expected : Nat)

/-- What a value was used for though it is of the wrong kind. -/
inductive Misuse where
  | iterated (k : Kind)
  | measured (k : Kind)
  | hashed (k : Kind)
  | index (k : Kind)
  | compared (sign : Text) (k l : Kind)
  /-- The text of a label was wanted. -/
  | label (k : Kind)
  /-- The name of a setting was wanted. -/
  | settingName (k : Kind)
  /-- A path was wanted. -/
  | path (k : Kind)
  /-- A written form was wanted. -/
  | serialized (k : Kind)
deriving DecidableEq, Repr

/-- A numeral with more digits than a numeral may have. -/
structure LongNumeral where
  digits : Nat
deriving DecidableEq, Repr

/-- Why a numeral stands for no number. -/
inductive NumeralFault where
  | tooLong (n : LongNumeral)
  | noFloat (text : Text)
deriving DecidableEq, Repr

/-- **Why something is refused.** -/
inductive Error where
  /-- The parts of an automaton do not fit together. -/
  | malformed (cause : Malformed)
  /-- The layout of a description breaks off or goes wrong at a position. -/
  | layout (atEnd : Bool) (place : Position)
  /-- The list of symbols names the column of empty moves. -/
  | reservedColumn (a : Symbol) (place : Position)
  /-- There are not as many rows as states. -/
  | rowCount (declared given : Nat)
  /-- A row has another label than its number. -/
  | rowLabel (expected : Nat) (found : Text) (place : Position)
  /-- A row has not one set for each column. -/
  | setCount (state given expected : Nat) (place : Position)
  /-- A document is refused for some cause: its format, or an object in it. -/
  | document (cause : Error)
  /-- A text breaks the rules of its format. Where it does, and what was expected there, is left
  out. -/
  | badFormat
  /-- A document is nested too deeply to be read. -/
  | tooDeep
  /-- There is nothing in a text. -/
  | emptyText
  /-- A numeral stands for no number. -/
  | numeral (fault : NumeralFault)
  /-- A document describes something else. -/
  | notAutomaton (found : Kind)
  /-- A part of a layout has a numeral that is too long. -/
  | layoutNumeral (part : Text) (n : LongNumeral)
  /-- An error whose wording comes after a list of so many states. -/
  | listing (n : Nat) (cause : Error)
  /-- More states are needed than are allowed. -/
  | stateLimit (limit : Value)
  /-- An index points outside its list. -/
  | outOfRange
  /-- An index is beyond what any list can have. -/
  | indexTooLarge
  /-- There is no entry with this key. -/
  | missingKey (key : Value)
  | misuse (cause : Misuse)
  /-- A value of some kind does not have what was wanted of it. -/
  | lacking (k : Kind) (wanted : Text)
  /-- Something cannot be written out. -/
  | unwritable (cause : Unwritable)
  /-- The bytes of a file are no text. -/
  | undecodable (failure : Utf8.Failure)
  /-- Pictures cannot be drawn in this format. -/
  | unknownFormat (name : Text) (known : List Text)
  /-- The name of a file has a character in it that no name can have. -/
  | impossibleName

/-! ## Wording -/

/-- The wording of a number with too many digits, with a remark on them. -/
def tooManyDigits (remark : Text) : Text :=
  "Exceeds the limit (" ++ .spell Text.numeralLimit
    ++ " digits) for integer string conversion" ++ remark
    ++ "; use sys.set_int_max_str_digits() to increase the limit"

/-- The wording of a numeral that is too long. -/
def LongNumeral.message (n : LongNumeral) : Text :=
  tooManyDigits (": value has " ++ .spell n.digits ++ " digits")

/-- The wording of a numeral that stands for no number. -/
def NumeralFault.message : NumeralFault → Text
  | tooLong n => n.message
  | noFloat text => "could not convert string to float: " ++ Text.quoted text

/-- The wording of what cannot be written out. -/
def Unwritable.message : Unwritable → Text
  | longInteger => tooManyDigits ""
  | repeatedHeading => "Field names must be unique"
  | noRoom => ""
  | tooManyStates => "Python int too large to convert to C ssize_t"

/-- The wording of what is wrong with the parts of an automaton. -/
def Malformed.message : Malformed → Text
  | reservedSymbol requested =>
    "alphabet must not contain " ++ epsilonSign ++ ", requested: " ++ (Value.list requested).quoted
  | repeatedSymbol requested =>
    "alphabet must not contain duplicates, requested: " ++ (Value.list requested).quoted
  | wrongKind field wanted found =>
    "Field " ++ field ++ " must be type " ++ wanted.describe ++ ", requested " ++ found.describe
      ++ "."
  | emptyField field => "Field " ++ field ++ " must not be empty."
  | noSuchState field state count =>
    "Field " ++ field ++ " references state " ++ .spell state ++ ", outside [0, "
      ++ count.plain ++ ")."
  | countNotPositive count =>
    "Field state_count must be positive, requested " ++ .spell count ++ "."
  | epsilonAmongInputs inputs =>
    epsilonSign ++ " must be the only input of a transition, requested: "
      ++ Value.quotedTexts inputs
  | inputOutside t a A =>
    t.describe ++ " uses input " ++ Text.quoted a ++ " outside the alphabet "
      ++ Value.quotedTexts A.symbols ++ "."
  | tableKey key =>
    "transition table keys must be (state, symbol) pairs, requested: " ++ key.quoted
  | unknownType tag =>
    "type field of json object must be `Transition` or `NFA`, requested: " ++ tag.plain
  | noStates => "a DFA needs at least its start state"
  | sharedIdentity first second identity =>
    "DFA states " ++ .spell first ++ " and " ++ .spell second ++ " share the identity "
      ++ braced (identity.map Value.plain)
  | rowInputs state given =>
    "DFA state " ++ .spell state ++ " must have one transition per input, requested: "
      ++ (Value.list given).quoted
  | rowLength row given expected =>
    "row " ++ .spell row ++ " has " ++ .spell given ++ " targets, expected "
      ++ .spell expected

/-- **What may keep the wording from being written out**, part by part. -/
def Malformed.obstacles : Malformed → List Obstacle
  | reservedSymbol requested | repeatedSymbol requested => Value.obstaclesOfAll requested
  | noSuchState _ state count => obstacleOf (unwritableInteger? state) ++ count.obstacles
  | countNotPositive count => obstacleOf (unwritableInteger? count)
  | inputOutside t _ _ => obstacleOf t.unwritable?
  | tableKey key => key.obstacles
  | unknownType tag => tag.obstacles
  | sharedIdentity _ _ identity => Value.obstaclesOfAll identity
  | rowInputs _ given => Value.obstaclesOfAll given
  | _ => []

/-- The wording of a misuse. -/
def Misuse.message : Misuse → Text
  | iterated k => "'" ++ k.name ++ "' object is not iterable"
  | measured k => "object of type '" ++ k.name ++ "' has no len()"
  | hashed k => "unhashable type: '" ++ k.name ++ "'"
  | index k => "list indices must be integers or slices, not " ++ k.name
  | compared sign k l =>
    "'" ++ sign ++ "' not supported between instances of '" ++ k.name ++ "' and '" ++ l.name ++ "'"
  | label k => "expected string or bytes-like object, got '" ++ k.name ++ "'"
  | settingName k => "attribute name must be string, not '" ++ k.name ++ "'"
  | path k => "expected str, bytes or os.PathLike object, not " ++ k.name
  | serialized k => "Object of type " ++ k.name ++ " is not JSON serializable"

/-- The wording of bytes that are no text. -/
def Utf8.Failure.message (f : Utf8.Failure) : Text :=
  let what :=
    if f.length = 1 then
      "byte 0x" ++ (Text.hexDigits 2 f.first.toNat) ++ " in position "
        ++ .spell f.position
    else
      "bytes in position " ++ .spell f.position ++ "-" ++ .spell (f.position + f.length - 1)
  let why := match f.fault with
    | .invalidStart => "invalid start byte"
    | .invalidContinuation => "invalid continuation byte"
    | .unexpectedEnd => "unexpected end of data"
  "'utf-8' codec can't decode " ++ what ++ ": " ++ why

/-- **The error in words.** -/
def Error.message : Error → Text
  | malformed cause => cause.message
  | layout atEnd place =>
    place.tell ("malformed nfa description: "
      ++ if atEnd then "UnexpectedEOF" else "UnexpectedCharacters")
  | reservedColumn a place =>
    place.tell ("Sigma must not list " ++ a ++ ", the lambda column is implicit")
  | rowCount declared given =>
    "|Q| is " ++ .spell declared ++ " but " ++ .spell given ++ " state rows were given"
  | rowLabel expected found place =>
    place.tell ("expected state row " ++ .spell expected ++ ", found " ++ found)
  | setCount state given expected place =>
    place.tell ("state " ++ .spell state ++ " has " ++ .spell given
      ++ " transition sets, expected " ++ .spell expected)
  | document cause => "malformed json: " ++ cause.message
  | badFormat => "<syntax>"
  | tooDeep => "maximum recursion depth exceeded"
  | emptyText => "Empty strings are not legal JSON5"
  | numeral fault => fault.message
  | notAutomaton found => "json root must be an NFA object, requested: " ++ found.describe
  | layoutNumeral part n =>
    "Error trying to process rule \"" ++ part ++ "\":\n\n" ++ n.message
  | listing _ cause => cause.message
  | stateLimit limit =>
    "subset construction exceeded the limit of " ++ limit.plain ++ " DFA states"
  | outOfRange => "list index out of range"
  | indexTooLarge => "cannot fit 'int' into an index-sized integer"
  | missingKey key => key.quoted
  | misuse cause => cause.message
  | lacking k wanted => "'" ++ k.name ++ "' object has no attribute '" ++ wanted ++ "'"
  | unwritable cause => cause.message
  | undecodable failure => failure.message
  | unknownFormat name known =>
    "unknown format: " ++ Text.quoted name ++ " (must be one of " ++ Value.quotedTexts known ++ ")"
  | impossibleName => "embedded null byte"

/-- **The error in place of which obstacles to its wording come up.** -/
def Error.after : List Obstacle → Error → Error
  | [], e => e
  | .reason r :: _, _ => unwritable r
  | .states n :: os, e => listing n (after os e)

/-- **The error that parts are malformed**, or that this cannot be put into words. -/
def Error.ofMalformed (cause : Malformed) : Error := .after cause.obstacles (malformed cause)

/-- **The error that more states are needed than are allowed**, or that this cannot be put into
words. -/
def Error.ofLimit (limit : Value) : Error := .after limit.obstacles (stateLimit limit)

/-- **The error that comes up on a machine.** -/
def Error.raised (m : Machine) : Error → Error
  | listing n e => match m.listStates n with
    | .ok _ => e.raised m
    | .error r => unwritable r
  | e => e

/-- A text, if a machine overcomes what may keep it from being written. -/
def Machine.write (m : Machine) (os : List Obstacle) (s : Text) : Except Error Text :=
  match m.overcome os with
  | .ok () => .ok s
  | .error r => .error (.unwritable r)

/-- **The place an error points to.** -/
def Error.place : Error → Position
  | layout false place => place
  | reservedColumn _ place => place
  | rowLabel _ _ place => place
  | setCount _ _ _ place => place
  | _ => .unknown

/-- What kind of complaint an error is. -/
inductive Error.Category where
  | configuration | description | stateLimit | index | key | kind | attribute | value | overflow
  | memory | encoding | layoutPart | recursion
  /-- It depends on the machine which it is. -/
  | unsettled
deriving DecidableEq, Repr

/-- **The kind of complaint.** Faults of descriptions are complaints about configurations too. -/
def Error.category : Error → Error.Category
  | malformed _ => .configuration
  | layout .. | reservedColumn .. | rowCount .. | rowLabel .. | setCount .. | document _
  | notAutomaton _ => .description
  | layoutNumeral .. => .layoutPart
  | stateLimit _ => .stateLimit
  | outOfRange | indexTooLarge => .index
  | missingKey _ => .key
  | misuse _ => .kind
  | lacking .. => .attribute
  | unwritable .tooManyStates => .overflow
  | unwritable .noRoom => .memory
  | badFormat | emptyText | numeral _ | unwritable _ | unknownFormat .. | impossibleName => .value
  | undecodable _ => .encoding
  | tooDeep => .recursion
  | listing .. => .unsettled

/-- The error is a fault of what was given, and not of the use of it. -/
def Error.isFaultOfValue (e : Error) : Bool :=
  [Category.configuration, .description, .value, .encoding].contains e.category

end FiniteAutomata
