import FiniteAutomata.Dfa.Subset
import FiniteAutomata.Minimized.Quotient
import FiniteAutomata.Tables

/-!
# Conversion — from a nondeterministic to a minimized automaton, with a record of the way

A conversion checks the automaton once more, builds the deterministic one and minimizes it. On the
way events are recorded, each at a level and by one of two channels; those below the level asked for
are left out. Drawing the table of the subset construction is part of the conversion only when its
event is asked for, and a conversion whose table cannot be drawn fails with it.
-/

namespace FiniteAutomata

/-! ## Events -/

/-- How much an event matters. -/
inductive Level where
  | debug | info | warning | error | critical
deriving DecidableEq, Repr

/-- The rank of a level. -/
def Level.rank : Level → Nat
  | .debug => 10
  | .info => 20
  | .warning => 30
  | .error => 40
  | .critical => 50

/-- The name of a level. -/
def Level.name : Level → Text
  | .debug => "DEBUG"
  | .info => "INFO"
  | .warning => "WARNING"
  | .error => "ERROR"
  | .critical => "CRITICAL"

/-- All levels, from the least. -/
def Level.all : List Level := [.debug, .info, .warning, .error, .critical]

/-- The level with a name. -/
def Level.ofName? (s : Text) : Option Level := Level.all.find? fun l => l.name == s

/-- An event of this level is recorded when `threshold` is asked for. -/
def Level.shows (threshold l : Level) : Bool := threshold.rank ≤ l.rank

/-- Who records an event: the conversion as a whole, or one of the two constructions. -/
inductive Channel where
  | conversion | construction
deriving DecidableEq, Repr

/-- **What happens in a conversion.** -/
inductive Event where
  | input (M : Amended)
  | subsets (table : Text)
  | built (dfaStates nfaStates : Int)
  | split (s : Split)
  | fixpoint (passes : Nat)
  | minimal (states : Nat)
  | minimized (states classes : Nat)

namespace Event

/-- The level of an event. -/
def level : Event → Level
  | built .. | minimal _ | minimized .. => .info
  | _ => .debug

/-- The channel of an event. -/
def channel : Event → Channel
  | input _ => .conversion
  | _ => .construction

/-- **The event in words**, unless it is about something that cannot be written out. -/
def message (m : Machine) : Event → Except Error Text
  | input M => do return "nfa:\n" ++ (← M.draw m)
  | subsets table => .ok ("subset construction:\n" ++ table)
  | built d n =>
    match unwritableInteger? n with
    | some reason => .error (.unwritable reason)
    | none =>
      .ok ("built a DFA with " ++ .spell d ++ " states from an NFA with " ++ .spell n
        ++ " states")
  | split s =>
    .ok ("pass " ++ .spell s.pass ++ ": " ++ .spell s.first ++ "," ++ .spell s.second
      ++ " split on input " ++ s.symbol)
  | fixpoint k => .ok ("table filling reached a fixpoint after " ++ .spell k ++ " passes")
  | minimal n => .ok ("dfa is already minimal (" ++ .spell n ++ " states)")
  | minimized n k =>
    .ok ("minimized a DFA with " ++ .spell n ++ " states to " ++ .spell k ++ " states")

end Event

/-! ## Recording -/

/-- An outcome, and the events on the way to it. -/
structure Traced (α : Type) where
  outcome : Except Error α
  events : List Event

namespace Traced

/-- The outcome, with one more event before the others if the level asked for shows it. -/
def record {α : Type} (threshold : Level) (e : Event) (t : Traced α) : Traced α :=
  if threshold.shows e.level then ⟨t.outcome, e :: t.events⟩ else t

/-- What comes after, with the events before it. -/
def andThen {α β : Type} (t : Traced α) (f : α → Traced β) : Traced β :=
  match t.outcome with
  | .ok a => ⟨(f a).outcome, t.events ++ (f a).events⟩
  | .error e => ⟨.error e, t.events⟩

end Traced

/-- **Minimization, with its events.** -/
def Dfa.minimizeTraced {σ : Type} [Identity σ] (threshold : Level) (D : Dfa σ) :
    Traced (Minimized Nat) :=
  let M := D.minimize
  let last := if M.classCount = D.size then Event.minimal D.size
    else Event.minimized D.size M.classCount
  let events := D.refinement.splits.map Event.split ++ [.fixpoint D.refinement.passes, last]
  ⟨.ok M, events.filter fun e => threshold.shows e.level⟩

/-- **The subset construction, with its events.** -/
def Nfa.toDfaTraced (threshold : Level) (limit : Value) (N : Nfa) : Traced (Dfa StateSet) :=
  match N.toDfa limit with
  | .error e => ⟨.error e, []⟩
  | .ok D =>
    let done := Traced.record threshold (.built D.size N.stateCount) ⟨.ok D, []⟩
    if threshold.shows .debug then
      match D.drawSubsets with
      | .error e => ⟨.error e, []⟩
      | .ok table => done.record threshold (.subsets table)
    else done

/-- A deterministic automaton and its minimized form. -/
structure Conversion where
  dfa : Dfa StateSet
  minimized : Minimized Nat

/-- **The conversion of an automaton, with its events.** -/
def Amended.convertTraced (threshold : Level) (limit : Value) (M : Amended) :
    Traced Conversion :=
  match M.validate with
  | .error e => ⟨.error e, []⟩
  | .ok () =>
    let dfa := (M.base.toDfaTraced threshold limit).andThen fun D =>
      (D.minimizeTraced threshold).andThen fun m => ⟨.ok ⟨D, m⟩, []⟩
    dfa.record threshold (.input M)

/-- **The conversion of an automaton.** -/
def Amended.convert (limit : Value) (M : Amended) : Except Error Conversion := do
  M.validate
  let D ← M.base.toDfa limit
  return ⟨D, D.minimize⟩

end FiniteAutomata
