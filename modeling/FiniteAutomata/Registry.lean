import FiniteAutomata.Identity

/-!
# Registry — a table of sets in use

A registry numbers sets in the order in which they are first put in. It has an index, in which it
looks the number of a set up, and a list of its own, in which it finds the set of a number. It hands
out copies of that list, and whoever has a copy may change it. Lists are kept under addresses, so
that a change is one of the list under an address. A `Registry.Request` is what may be asked of a
registry: each has a reply (`Registry.reply`) and leaves a registry behind (`Registry.after`).
-/

namespace FiniteAutomata

/-- **An index of sets with their numbers, and lists of sets under addresses**: the registry's own
list and those that were handed out. -/
structure Registry where
  index : List (Members × Nat)
  lists : List (List Members)
  /-- The addresses of the lists that were handed out, in turn. -/
  handedOut : List Nat

namespace Registry

/-- The address of the registry's own list. -/
def ownAddress : Nat := 0

/-- The registry without sets. -/
def new : Registry := ⟨[], [[]], []⟩

variable (R : Registry)

/-- The list under an address. -/
def listAt (a : Nat) : List Members := R.lists[a]?.getD []

/-- The sets in the order of their numbers. -/
def sets : List Members := R.listAt ownAddress

/-- The number of a set, if the index has it. -/
def indexOf? (S : Members) : Option Nat :=
  (R.index.find? fun e => Identity.same e.1 S).map (·.2)

/-- **Looks a set up, putting it in if it is new**: its number, whether it is new, and the registry
that has it. -/
def place (S : Members) : (Nat × Bool) × Registry :=
  match R.indexOf? S with
  | some i => ((i, false), R)
  | none =>
    let i := R.sets.length
    ((i, true), { R with
      index := R.index ++ [(S, i)]
      lists := R.lists.set ownAddress (R.sets ++ [S]) })

/-- Hands out a copy of the list of sets, under a new address. -/
def handOut : Registry := { R with
  lists := R.lists ++ [R.sets]
  handedOut := R.handedOut ++ [R.lists.length] }

/-- Puts another list in place of one that was handed out. -/
def change (k : Nat) (l : List Members) : Registry :=
  match R.handedOut[k]? with
  | some a => { R with lists := R.lists.set a l }
  | none => R

/-! ## Requests -/

/-- **What is asked of a registry.** Sets are given as collections of their members. -/
inductive Request where
  | insert (xs : Value)
  | indexOf (xs : Value)
  | contains (xs : Value)
  /-- Whether the registry has something that is no set. -/
  | containsOther (v : Value)
  | identity (i : Value)
  | identities
  | size
  /-- Another list in place of one that was handed out. -/
  | change (k : Nat) (l : List Members)

/-- **What is replied to a request.** -/
inductive Reply where
  | placed (r : Except Error (Nat × Bool))
  | number (r : Except Error (Option Nat))
  | verdict (r : Except Error Bool)
  | set (r : Except Error Members)
  | sets (l : List Members)
  | size (n : Nat)
  | done

/-- The reply to a request. -/
def reply : Request → Reply
  | .insert xs => .placed do return (R.place (← Members.ofValue xs)).1
  | .indexOf xs => .number do return R.indexOf? (← Members.ofValue xs)
  | .contains xs => .verdict do return (R.indexOf? (← Members.ofValue xs)).isSome
  | .containsOther _ => .verdict (.ok false)
  | .identity i => .set do
    let k ← i.toPlace R.sets.length
    return R.sets[k]
  | .identities => .sets R.sets
  | .size => .size R.sets.length
  | .change .. => .done

/-- The registry that a request leaves behind. -/
def after : Request → Registry
  | .insert xs => match Members.ofValue xs with
    | .ok S => (R.place S).2
    | .error _ => R
  | .identities => R.handOut
  | .change k l => R.change k l
  | _ => R

/-- **The registry that requests in turn leave behind.** -/
def afterAll (requests : List Request) : Registry := requests.foldl after R

end Registry

end FiniteAutomata
