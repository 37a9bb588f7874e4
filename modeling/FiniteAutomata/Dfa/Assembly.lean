import FiniteAutomata.Dfa.Basic
import FiniteAutomata.Nfa.MoveTable

/-!
# Dfa/Assembly — deterministic automata put together from states or from rows

Given states are checked in turn: a state must have an identity of its own, one target or none for
each symbol, and targets among the states. A table of rows gives each state the identity that holds
only its number.
-/

namespace FiniteAutomata

/-- A given state: its identity and its targets under keys of which no two are the same, or
something that is no state at all. -/
inductive GivenState (σ : Type) where
  | state (identity : σ) (targets : List (Value × Value))
  | other (v : Value)

namespace Dfa

variable {σ : Type}

/-- A target: none, or one of `n` states. -/
def checkTarget (n : Nat) (field : Text) (v : Value) :
    Except Error { o : Option Nat // ∀ t, o = some t → t < n } :=
  match v with
  | .null => .ok ⟨none, by simp⟩
  | _ => do
    let s ← v.checkState n field
    return ⟨some s.1.toNat, by
      intro t ht
      obtain rfl := Option.some.inj ht
      exact (Int.toNat_lt s.2.1).mpr s.2.2⟩

/-- The targets of a state under their symbols, which are texts. -/
def checkTargets (n : Nat) (field : Text) : (es : List (Value × Value)) →
    Except Error { l : List (Symbol × Option Nat) //
      l.map (·.1) = es.map (fun e => e.1.plain) ∧ ∀ e ∈ l, ∀ t, e.2 = some t → t < n }
  | [] => .ok ⟨[], rfl, by simp⟩
  | (key, v) :: es => do
    let o ← checkTarget n field v
    let l ← checkTargets n field es
    return ⟨(key.plain, o.1) :: l.1, by simp [l.2.1], by
      intro e he t ht
      rcases List.mem_cons.mp he with rfl | he
      · exact o.2 t ht
      · exact l.2.2 e he t ht⟩

/-- The keys are texts and name each symbol once. -/
def NamesSymbols (A : Alphabet) (es : List (Value × Value)) : Prop :=
  (∀ e ∈ es, e.1.kind = .text) ∧ (es.map fun e => e.1.plain).Perm A.symbols

instance (A : Alphabet) (es : List (Value × Value)) : Decidable (NamesSymbols A es) :=
  inferInstanceAs (Decidable (_ ∧ _))

variable [Identity σ]

/-- Checks a given state after those with the earlier identities. -/
def checkGiven (n : Nat) (A : Alphabet) (earlier : List σ) (g : GivenState σ) :
    Except Error { q : DfaState σ // q.Fits n A } :=
  match g with
  | .other v => .error (.malformed (.wrongKind "DFA.states[]" .dfaState v.kind))
  | .state identity targets => do
    match earlier.findIdx? fun x => Identity.same x identity with
    | some j =>
      throw (.ofMalformed (.sharedIdentity j earlier.length (← Identity.sortedMembers identity)))
    | none => pure ()
    if h : NamesSymbols A targets then
      let l ← checkTargets n ("DFA.states[" ++ .spell earlier.length ++ "].transitions") targets
      return ⟨⟨identity, l.1⟩, by
        change (l.1.map (·.1)).Perm A.symbols
        rw [l.2.1]
        exact h.2, l.2.2⟩
    else
      throw (.ofMalformed (.rowInputs earlier.length (← Value.sorted (targets.map (·.1)))))

/-- Checks given states in turn. -/
def checkAll (n : Nat) (A : Alphabet) : List σ → (gs : List (GivenState σ)) →
    Except Error { qs : List (DfaState σ) // qs.length = gs.length ∧ ∀ q ∈ qs, q.Fits n A }
  | _, [] => .ok ⟨[], rfl, by simp⟩
  | earlier, g :: gs => do
    let q ← checkGiven n A earlier g
    let qs ← checkAll n A (earlier ++ [q.1.identity]) gs
    return ⟨q.1 :: qs.1, by simp [qs.2.1], by
      intro p hp
      rcases List.mem_cons.mp hp with rfl | hp
      · exact q.2
      · exact qs.2.2 p hp⟩

/-- **The automaton with these states**, the first of them the start state. -/
def ofStates (given : List (GivenState σ)) (A : Alphabet) (accepting : σ) : Except Error (Dfa σ) :=
  if hne : given = [] then .error (.malformed .noStates)
  else do
    let qs ← checkAll given.length A [] given
    return {
      alphabet := A
      states := qs.1
      accepting := accepting
      nonempty := by
        intro h
        have hlen := qs.2.1
        rw [h] at hlen
        exact hne (List.length_eq_zero_iff.mp hlen.symm)
      states_fit := by
        rw [qs.2.1]
        exact qs.2.2 }

/-- The state that a row of targets gives. -/
def givenRow (A : Alphabet) (i : Nat) (row : Value) : Except Error (GivenState StateSet) := do
  let given ← row.size
  if given ≠ A.size then throw (.malformed (.rowLength i given A.size))
  return .state (.singleton i) ((A.symbols.map Value.text).zip (← row.members))

/-- **The automaton given by rows of targets**, in the order of the alphabet. -/
def ofTable (rows accepting alphabet : Value) : Except Error (Dfa StateSet) := do
  let A ← Alphabet.ofValue alphabet
  let given ← (← rows.members).zipIdx.mapM fun p => givenRow A p.2 p.1
  let F ← (← accepting.members).mapM fun v => v.checkState given.length "accept_states"
  ofStates given A (.ofList (F.map (·.1)))

end Dfa

end FiniteAutomata
