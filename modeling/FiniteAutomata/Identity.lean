import FiniteAutomata.Check

/-!
# Identity — what states of a deterministic automaton stand for

A state of a deterministic automaton stands for a set of states of another automaton, its identity.
Such sets are told apart, asked whether they meet, and listed in order; `Identity` names what is
needed of them. Sets of states have it, and so have sets of any values at all, which are kept as
they were put together (`Members`).

A table lists sets, no two of them the same, and the place of a set in the list is its number. A set
that is looked up is put at the end if the table does not have it yet (`IdentityTable.insert`).
-/

namespace FiniteAutomata

/-! ## Sets -/

/-- **Finite sets that can stand for states.** -/
class Identity (σ : Type) where
  /-- The two sets have the same members. -/
  same : σ → σ → Bool
  /-- The two sets have a member in common. -/
  meets : σ → σ → Bool
  /-- The members in ascending order, if they have one. -/
  sortedMembers : σ → Except Error (List Value)

instance : Identity StateSet where
  same S T := S == T
  meets := StateSet.meets
  sortedMembers S := .ok (S.elems.map .int)

/-- **A set of values**, no two of them the same. -/
structure Members where
  values : List Value

namespace Members

/-- The members of a collection, if a set can hold them. -/
def ofValue (v : Value) : Except Error Members := do return ⟨← v.distinctMembers⟩

/-- The set holds a value that is the same. -/
def holds (S : Members) (v : Value) : Bool := S.values.any (Value.same · v)

instance : Identity Members where
  same S T := S.values.length == T.values.length && S.values.all T.holds
  meets S T := S.values.any T.holds
  sortedMembers S := Value.sorted S.values

end Members

/-- The texts of values between braces, if they can be written out. -/
def Value.describeSet (m : Machine) (vs : List Value) : Except Error Text :=
  m.write (obstaclesOfAll vs) (braced (vs.map plain))

/-- A set as text, its members in ascending order. -/
def Identity.describe {σ : Type} [Identity σ] (m : Machine) (x : σ) : Except Error Text := do
  Value.describeSet m (← sortedMembers x)

/-- A set of states as text: no list of states has to be made for it. -/
def StateSet.describe (S : StateSet) : Except Error Text :=
  match S.elems.findSome? unwritableInteger? with
  | some reason => .error (.unwritable reason)
  | none => .ok (braced S.names)

/-! ## Tables -/

/-- **A list of distinct sets**, each numbered by its place. -/
structure IdentityTable (σ : Type) where
  identities : List σ

namespace IdentityTable

variable {σ : Type}

/-- The table without sets. -/
def empty : IdentityTable σ := ⟨[]⟩

/-- The number of sets. -/
def size (T : IdentityTable σ) : Nat := T.identities.length

variable [Identity σ]

/-- The number of a set, if the table has it. -/
def indexOf? (T : IdentityTable σ) (x : σ) : Option Nat :=
  T.identities.findIdx? fun y => Identity.same y x

/-- The table has the set. -/
def contains (T : IdentityTable σ) (x : σ) : Bool := (T.indexOf? x).isSome

/-- **Looks a set up, putting it at the end if it is new**: its number, whether it is new, and the
table that has it. -/
def insert (T : IdentityTable σ) (x : σ) : Nat × Bool × IdentityTable σ :=
  match T.indexOf? x with
  | some i => (i, false, T)
  | none => (T.size, true, ⟨T.identities ++ [x]⟩)

end IdentityTable

end FiniteAutomata
