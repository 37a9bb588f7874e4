import FiniteAutomata.Conversion

/-!
# CommandLine/Options — what a command line asks for

A command line names one input and gives options, which may be shortened as far as they stay
unambiguous and may have their value after an equals sign. After two dashes nothing is an option. A
later option of the same name wins. The first fault found is reported: ambiguous options first, then
whatever else is wrong from left to right, then a missing input, then what could not be used.
-/

namespace FiniteAutomata

namespace CommandLine

/-! ## Options -/

/-- What can be set. -/
inductive Setting where
  | help | maxStates | subsets | render | format | logLevel
deriving DecidableEq, Repr

/-- The names of options, in the order in which they are listed. -/
def optionNames : List (String × Setting) :=
  [("-h", .help), ("--help", .help), ("--max-states", .maxStates), ("--subsets", .subsets),
    ("--render", .render), ("--format", .format), ("--log-level", .logLevel)]

/-- The option wants a value. -/
def Setting.takesValue : Setting → Bool
  | .help | .subsets => false
  | _ => true

/-- The option as error messages name it. -/
def Setting.name (o : Setting) : Text :=
  List.intercalate "/" ((optionNames.filter fun p => p.2 == o).map fun p => Text.ofString p.1)

/-- **What a command line asks for.** -/
structure Request where
  input : String
  maxStates : Option Int
  subsets : Bool
  render : Option String
  format : String
  logLevel : Level
  /-- The settings for which two dashes were given in place of a value. -/
  emptied : List Setting
deriving DecidableEq, Repr

/-- Why a command line cannot be used, or that help is wanted. -/
inductive Refusal where
  | help
  | ambiguous (argument : String) (names : List String)
  | noValue (o : Setting)
  | unwantedValue (o : Setting) (value : String)
  | noInteger (o : Setting) (value : String)
  | noChoice (o : Setting) (value : String)
  | noInput
  | unrecognized (arguments : List String)
  | limitNotPositive
deriving DecidableEq, Repr

/-- The refusal in words. -/
def Refusal.message : Refusal → Text
  | .help => ""
  | .ambiguous argument names =>
    "ambiguous option: " ++ argument ++ " could match "
      ++ List.intercalate ", " (names.map Text.ofString)
  | .noValue o => "argument " ++ o.name ++ ": expected one argument"
  | .unwantedValue o value =>
    "argument " ++ o.name ++ ": ignored explicit argument " ++ Text.quoted value
  | .noInteger o value => "argument " ++ o.name ++ ": invalid int value: " ++ Text.quoted value
  | .noChoice o value =>
    "argument " ++ o.name ++ ": invalid choice: " ++ Text.quoted value ++ " (choose from "
      ++ List.intercalate ", " (Level.all.map fun l => Text.quoted l.name) ++ ")"
  | .noInput => "the following arguments are required: input"
  | .unrecognized arguments =>
    "unrecognized arguments: " ++ List.intercalate " " (arguments.map Text.ofString)
  | .limitNotPositive => "--max-states must be positive"

/-! ## Telling options from other arguments -/

/-- An argument by its role: a plain one, the two dashes, an option by the name it was given with
and the text after it, if any, the letter for help with a text after it, or something that looks
like an option and is none. -/
inductive Argument where
  | plain (s : String)
  | dashes
  | option (o : Setting) (value : Option String)
  | letter (rest : List Char)
  | unknown (s : String)
deriving DecidableEq, Repr

/-- The parts of a list before and after its first equals sign, if it has one. -/
def splitAtEquals : List Char → List Char × Option (List Char)
  | [] => ([], none)
  | '=' :: s => ([], some s)
  | c :: s => let (a, b) := splitAtEquals s; (c :: a, b)

/-- A minus sign, then digits, perhaps with a point before the last of them. -/
def looksNegative (s : List Char) : Bool :=
  let s := if s.getLast? == some '\n' then s.dropLast else s
  match s with
  | '-' :: s =>
    match s.dropWhile fun c => Text.isDecimal (.char c) with
    | [] => !s.isEmpty
    | '.' :: fraction => !fraction.isEmpty && fraction.all fun c => Text.isDecimal (.char c)
    | _ => false
  | _ => false

/-- The option with exactly this name. -/
def exactOption (name : List Char) (value : Option String) : Option Argument :=
  if name = ['-', 'h'] then
    some (match value with
      | some v => .letter v.toList
      | none => .option .help none)
  else (optionNames.find? fun p => p.1.toList == name).map fun p => .option p.2 value

/-- What looks like an option and is none: a negative number and whatever has a blank in it are
plain arguments. -/
def otherArgument (s : String) : Argument :=
  if looksNegative s.toList || s.toList.contains ' ' then .plain s else .unknown s

/-- The options whose names begin so. -/
def optionsBeginning (beginning : List Char) : List (String × Setting) :=
  optionNames.filter fun p => beginning.isPrefixOf p.1.toList

/-- The role of an argument before the two dashes. -/
def classify (s : String) : Except Refusal Argument :=
  match s.toList with
  | '-' :: c :: rest =>
    let cs := '-' :: c :: rest
    let (name, value) := splitAtEquals cs
    let value := value.map String.ofList
    match exactOption cs none with
    | some a => .ok a
    | none =>
      match value.bind fun v => exactOption name (some v) with
      | some a => .ok a
      | none =>
        if c = '-' then
          match optionsBeginning name with
          | [] => .ok (otherArgument s)
          | [p] => .ok (.option p.2 value)
          | ps => .error (.ambiguous s (ps.map (·.1)))
        else if c = 'h' then .ok (.letter rest)
        else .ok (otherArgument s)
  | _ => .ok (.plain s)

/-- The roles of all arguments. -/
def classifyAll : List String → Except Refusal (List Argument)
  | [] => .ok []
  | s :: rest =>
    if s = "--" then .ok (.dashes :: rest.map .plain)
    else do
      let a ← classify s
      return a :: (← classifyAll rest)

/-! ## Reading arguments -/

/-- What has been read so far. -/
structure Progress where
  input : Option String
  /-- The input was the argument just read. -/
  fresh : Bool
  /-- The option that wants the next argument for its value. -/
  awaiting : Option Setting
  extras : List String
  request : Request

/-- What is asked for if nothing is said. -/
def Progress.start : Progress :=
  ⟨none, false, none, [], ⟨"", none, false, none, "svg", .warning, []⟩⟩

/-- What is read, with the request as it is now. -/
def Progress.ask (p : Progress) (request : Request) : Progress := { p with request := request }

/-- Two dashes in place of a value leave a setting without one. Pictures are asked for even so. -/
def Progress.empty (p : Progress) (o : Setting) : Progress :=
  let render := if o = .render then some "" else p.request.render
  p.ask { p.request with render := render, emptied := o :: p.request.emptied }

/-- Sets an option that wants a value. -/
def Progress.setValue (p : Progress) (o : Setting) (value : String) : Except Refusal Progress :=
  let p := p.ask { p.request with emptied := p.request.emptied.filter (· != o) }
  match o with
  | .maxStates =>
    match Text.readInteger value with
    | some n => .ok (p.ask { p.request with maxStates := some n })
    | none => .error (.noInteger o value)
  | .render => .ok (p.ask { p.request with render := some value })
  | .format => .ok (p.ask { p.request with format := value })
  | .logLevel =>
    match Level.ofName? value with
    | some l => .ok (p.ask { p.request with logLevel := l })
    | none => .error (.noChoice o value)
  | _ => .ok p

/-- Sets an option that wants none. -/
def Progress.setFlag (p : Progress) (o : Setting) : Except Refusal Progress :=
  match o with
  | .help => .error .help
  | _ => .ok (p.ask { p.request with subsets := true })

/-- What a text after the letter for help comes to: help, if it only asks for it again, and else a
value that is not wanted. -/
def letterRefusal (rest : List Char) : Refusal :=
  match rest, rest.dropWhile (· == 'h') with
  | _ :: _, [] => .help
  | _, cs => .unwantedValue .help (String.ofList cs)

/-- Keeps an argument that nothing can be done with. -/
def Progress.extra (p : Progress) (s : String) : Progress := { p with extras := p.extras ++ [s] }

/-- Reads one argument when no option wants it. The two dashes go with the input beside them. -/
def Progress.readFree (p : Progress) : Argument → Except Refusal Progress
  | .plain s => match p.input with
    | none => .ok { p with input := some s, fresh := true }
    | some _ => .ok (p.extra s)
  | .dashes => if p.fresh || p.input.isNone then .ok p else .ok (p.extra "--")
  | .unknown s => .ok (p.extra s)
  | .letter cs => .error (letterRefusal cs)
  | .option o (some value) =>
    if ¬ o.takesValue then .error (.unwantedValue o value)
    else if value = "--" then .ok (p.empty o)
    else p.setValue o value
  | .option o none => if o.takesValue then .ok { p with awaiting := some o } else p.setFlag o

/-- Reads one argument. -/
def Progress.read (p : Progress) (a : Argument) : Except Refusal Progress :=
  match p.awaiting, a with
  | some o, .plain value => { p with awaiting := none }.setValue o value
  | some o, _ => .error (.noValue o)
  | none, _ => do
    let q ← p.readFree a
    return if p.fresh then { q with fresh := false } else q

/-- **What the arguments ask for**, or the first thing wrong with them. -/
def Request.ofArguments (arguments : List String) : Except Refusal Request := do
  let p ← (← classifyAll arguments).foldlM Progress.read .start
  if let some o := p.awaiting then throw (.noValue o)
  match p.input with
  | none => throw .noInput
  | some input =>
    if p.extras ≠ [] then throw (.unrecognized p.extras)
    if ¬ p.request.emptied.contains .maxStates ∧ p.request.maxStates.any (· < 1) then
      throw .limitNotPositive
    return { p.request with input := input }

end CommandLine

end FiniteAutomata
