import FiniteAutomata.CommandLine.Options
import FiniteAutomata.Source
import FiniteAutomata.Text.Lowercase

/-!
# CommandLine/Run — what the program answers

A run reads the input, converts it and prints the automata; its `Report` holds the exit code, the
output and the complaints. Complaints are the events of the conversion, the steps of drawing
pictures and the faults of the run, each with its level before it, as far as the level asked for
shows them. No picture is ever drawn, since there is nothing to draw it with. Faults of
descriptions, files and limits end the run with a code of their own; other errors end it without a
report.
-/

namespace FiniteAutomata

namespace CommandLine

/-! ## Paths -/

/-- The part of a path after its last slash. -/
def baseName (path : String) : String :=
  String.ofList (path.toList.reverse.takeWhile (· != '/')).reverse

/-- The directory of a path: what stands before its last slash, without slashes at the end unless
there is nothing else. -/
def directoryName (path : String) : String :=
  let upTo := path.toList.reverse.dropWhile (· != '/')
  let kept := upTo.dropWhile (· == '/')
  String.ofList (if kept = [] then upTo else kept).reverse

/-- A name without what follows its last dot. Dots at its beginning do not count. -/
def stem (name : String) : String :=
  let cs := name.toList
  let dots := cs.takeWhile (· == '.')
  match (cs.drop dots.length).reverse.dropWhile (· != '.') with
  | [] => name
  | _ :: before => String.ofList (dots ++ before.reverse)

/-- The path of a file in a directory. -/
def joinPath (directory file : String) : String :=
  if directory = "" ∨ directory.endsWith "/" then directory ++ file else directory ++ "/" ++ file

/-- The greatest number of bytes in a part of a path, and in a whole path. -/
def pathLimits : Nat × Nat := (255, 4095)

/-! ## Reports -/

/-- **The answer of a run.** -/
structure Report where
  code : Nat
  output : Text
  complaints : Text
deriving DecidableEq, Repr

/-- Why a file cannot be read: the number and the wording of the system's error. -/
structure ReadFailure where
  number : Nat
  reason : String
deriving DecidableEq, Repr

/-- There is no such file. -/
def ReadFailure.missing : ReadFailure := ⟨2, "No such file or directory"⟩

/-- The path goes through something that is no directory. -/
def ReadFailure.notDirectory : ReadFailure := ⟨20, "Not a directory"⟩

/-- The path leads to a directory. -/
def ReadFailure.isDirectory : ReadFailure := ⟨21, "Is a directory"⟩

/-- The path or a part of it is too long. -/
def ReadFailure.tooLong : ReadFailure := ⟨36, "File name too long"⟩

/-- The failure in words, with the name of the file. -/
def ReadFailure.message (f : ReadFailure) (name : String) : Text :=
  "[Errno " ++ .spell f.number ++ "] " ++ f.reason ++ ": " ++ Text.quoted name

/-- The summary of options. -/
def usage : Text :=
  "usage: nfa2dfa [-h] [--max-states MAX_STATES] [--subsets] [--render DIR]\n" ++
  "               [--format FORMAT]\n" ++
  "               [--log-level \x7bDEBUG,INFO,WARNING,ERROR,CRITICAL\x7d]\n" ++
  "               input\n"

/-- The explanation of options. -/
def helpText : Text :=
  usage ++
  "\nConvert an NFA to a DFA with subset construction, then minimize it.\n" ++
  "\npositional arguments:\n" ++
  "  input                 NFA description (.nfa text, .json or .json5)\n" ++
  "\noptions:\n" ++
  "  -h, --help            show this help message and exit\n" ++
  "  --max-states MAX_STATES\n" ++
  "                        abort when the DFA would grow past this many states\n" ++
  "  --subsets             also print which NFA states every DFA state stands for\n" ++
  "  --render DIR          render the NFA, DFA and minimized DFA with graphviz into DIR\n" ++
  "  --format FORMAT       graphviz output format (default: svg)\n" ++
  "  --log-level \x7bDEBUG,INFO,WARNING,ERROR,CRITICAL\x7d\n" ++
  "                        Logging level (default: WARNING)\n"

/-- A complaint as it is written. -/
def complaint (l : Level) (message : Text) : Text := l.name ++ ": " ++ message ++ "\n"

/-- A complaint, if the level asked for shows it. -/
def Request.complain (r : Request) (l : Level) (message : Text) : Text :=
  if r.logLevel.shows l then complaint l message else ""

/-- An event as it is written. One that cannot be put into words is left out. -/
def describeEvent (m : Machine) (e : Event) : Text :=
  match e.message m with
  | .ok message => complaint e.level message
  | .error _ => ""

/-- What is printed of a conversion. -/
def Conversion.print (m : Machine) (r : Request) (c : Conversion) : Except Error Text := do
  let name := baseName r.input
  let dfa ← c.dfa.drawListing
  let subsets ← if r.subsets then c.dfa.drawIdentities m else .ok ""
  let minimized ← c.minimized.drawListing true
  return "NFA " ++ name ++ " to DFA:\n" ++ dfa ++ "\n" ++ subsets
    ++ (if r.subsets then ("\n" : Text) else [])
    ++ "\nMinimized DFA from " ++ name ++ ":\n" ++ minimized ++ "\n"

/-! ## Pictures -/

/-- The formats in which pictures can be drawn. -/
def pictureFormats : List Text :=
  ["bmp", "canon", "cgimage", "cmap", "cmapx", "cmapx_np", "dot", "dot_json", "eps", "exr", "fig",
    "gd", "gd2", "gif", "gtk", "gv", "ico", "imap", "imap_np", "ismap", "jp2", "jpe", "jpeg", "jpg",
    "json", "json0", "pct", "pdf", "pic", "pict", "plain", "plain-ext", "png", "pov", "ps", "ps2",
    "psd", "sgi", "svg", "svg_inline", "svgz", "tga", "tif", "tiff", "tk", "vml", "vmlz", "vrml",
    "wbmp", "webp", "x11", "xdot", "xdot1.2", "xdot1.4", "xdot_json", "xlib"].map Text.ofString

/-- What is known of the files: what is in the one at a path, or why it cannot be read. -/
abbrev Files := String → Except ReadFailure (List UInt8)

/-- A directory can be made at the path, or is there already. -/
def canMakeDirectory (read : Files) (path : String) : Bool :=
  match read path with
  | .error f => f = .missing || f = .isDirectory
  | .ok _ => false

/-- A file can be written at the path. -/
def canWrite (read : Files) (path : String) : Bool :=
  match read path with
  | .error f => f = .missing
  | .ok _ => true

/-- No name of a file has this character in it. -/
def hasImpossibleCharacter (path : String) : Bool := path.toList.contains '\x00'

/-- The name of the file with the first picture's description. -/
def pictureFile (input : String) : String := stem (baseName input) ++ ".nfa"

/-- **The steps of drawing the first picture**, up to the one that fails: the directory is made, the
description is written, and the program that draws is not found. -/
def pictureSteps (read : Files) (directory file : String) (format : Text) : List Text :=
  let path := joinPath directory file
  let parent := directoryName path
  let made := if parent = "" then [] else [("os.makedirs(" : Text) ++ Text.quoted parent ++ ")"]
  if parent ≠ "" ∧ ¬ canMakeDirectory read parent then made
  else
    let written := made ++ [("write lines to " : Text) ++ Text.quoted path]
    if ¬ canWrite read path then written
    else
      let command : List Text := ["-Kdot", "-T" ++ format, "-O", baseName path]
      written ++ [("run [PosixPath('dot'), " : Text)
        ++ List.intercalate ", " (command.map Text.quoted) ++ "]"]

/-- **The complaints about pictures** that are wanted in a directory. -/
def Request.drawPictures (r : Request) (m : Machine) (read : Files) (M : Amended)
    (directory : String) : Except Error Text := do
  let _ ← ofWritten (M.describeDiagram m)
  if r.emptied.contains .format then throw (.lacking .list "lower")
  let format := Text.lowercase r.format
  unless pictureFormats.contains format do throw (.unknownFormat format pictureFormats)
  if r.emptied.contains .render then throw (.misuse (.path .list))
  if hasImpossibleCharacter directory then throw .impossibleName
  let steps := pictureSteps read directory (pictureFile r.input) format
  return (steps.map (r.complain .debug)).flatten ++ r.complain .error "rendering failed"

/-! ## Runs -/

/-- The run on an automaton that has been read, after some complaints. -/
def Request.runOn (r : Request) (m : Machine) (read : Files) (earlier : Text) (N : Nfa) :
    Except Error Report :=
  let limit : Value := match r.maxStates with
    | some n => .int n
    | none => .null
  let t := (Amended.ofNfa N).convertTraced r.logLevel limit
  let complaints := earlier ++ (t.events.map (describeEvent m)).flatten
  match t.outcome.mapError (Error.raised m) with
  | .error (.stateLimit n) =>
    .ok ⟨3, "", complaints ++ r.complain .error (Error.stateLimit n).message⟩
  | .error e => .error e
  | .ok c => do
    let output ← Conversion.print m r c
    match r.render with
    | none => return ⟨0, output, complaints⟩
    | some directory =>
      return ⟨4, output, complaints ++ (← r.drawPictures m read (.ofNfa N) directory)⟩

/-- **The run of a request.** Settings left without a value are found when they are used. -/
def Request.run (r : Request) (m : Machine) (read : Files) : Except Error Report := do
  if r.emptied.contains .maxStates then throw (.misuse (.compared "<" .list .int))
  if r.emptied.contains .logLevel then throw (.misuse (.settingName .list))
  if hasImpossibleCharacter r.input then throw .impossibleName
  let opening := r.complain .info ("reading NFA from " ++ r.input ++ " ...")
  match read r.input with
  | .error f =>
    return ⟨4, "", opening
      ++ r.complain .error ("cannot read " ++ r.input ++ ": " ++ f.message r.input)⟩
  | .ok bytes =>
    match Nfa.ofFile m r.input bytes with
    | .ok N => r.runOn m read opening N
    | .error e =>
      if e.category = .configuration ∨ e.category = .description then
        return ⟨1, "", opening ++ r.complain .error (r.input ++ ": " ++ e.message)⟩
      else throw e

/-- The report on a command line that cannot be used. -/
def Refusal.report : Refusal → Report
  | .help => ⟨0, helpText, ""⟩
  | f => ⟨2, "", usage ++ "nfa2dfa: error: " ++ f.message ++ "\n"⟩

/-- The paths that a run of the request looks at. -/
def Request.paths (r : Request) : List String :=
  match r.render with
  | none => [r.input]
  | some directory =>
    let path := joinPath directory (pictureFile r.input)
    [r.input, directoryName path, path]

/-- **The run of a command line**, where `read` tells what is known of files. -/
def run (m : Machine) (arguments : List String) (read : Files) : Except Error Report :=
  match Request.ofArguments arguments with
  | .error f => .ok f.report
  | .ok r => r.run m read

end CommandLine

end FiniteAutomata
