import FiniteAutomata.Lookup
import FiniteAutomata.Proofs.Minimized.Quotient
import FiniteAutomata.Proofs.Nfa.Assembly
import FiniteAutomata.Proofs.Nfa.Query

/-!
# Proofs/Checked/Simulation — words are run without any lookup being refused

To run a word, an automaton is asked for closures, moves and targets, and each answer may be an
error: a seed may be no state, an index may point nowhere, a key may be missing. The checked runs
`Nfa.checkedAccepts` and `Dfa.checkedAccepts` ask in just this way and pass every error on. Sets
that come up in a simulation hold states only (`Nfa.checkedStep_eq`), and targets are states with a
target or none for every symbol (`Dfa.queryValue_int`). So no error comes up, and the checked runs
are the plain ones (`Nfa.checkedAccepts_eq`, `Dfa.checkedAccepts_eq`).
-/

namespace FiniteAutomata

/-! ## Entries -/

/-- The entry of a list at a place, unless it has none there. -/
def entryAt {α : Type} (l : List α) (i : Nat) : Except Error α :=
  match l[i]? with
  | some x => .ok x
  | none => .error .outOfRange

theorem entryAt_eq_ok {α : Type} {l : List α} {i : Nat} {x : α} (h : l[i]? = some x) :
    entryAt l i = .ok x := by
  rw [entryAt, h]

/-- The entry of a table under a number, unless it has none there. -/
def entryUnder {α : Type} (table : List (Nat × α)) (i : Nat) : Except Error α :=
  match table.lookup i with
  | some x => .ok x
  | none => .error (.missingKey (.int i))

theorem entryUnder_eq_ok {α : Type} {table : List (Nat × α)} {i : Nat} {x : α}
    (h : table.lookup i = some x) : entryUnder table i = .ok x := by
  rw [entryUnder, h]

/-! ## Sets of states -/

/-- The members of a set as a value. -/
def StateSet.toValue (S : StateSet) : Value := .list (S.elems.map .int)

namespace Nfa

variable {N : Nfa} {S : StateSet} {a : Symbol}

/-- **The closure of a set of states is not refused.** -/
theorem closureValue_toValue (h : S.Within N.stateCount) :
    N.closureValue S.toValue = .ok (N.closure S) := by
  obtain ⟨states, hstates, hvals⟩ :=
    Value.exists_mapM_checkState "epsilon_closure.seed" h
  have hset : StateSet.ofList S.elems = S := StateSet.ext fun x => StateSet.mem_ofList
  refine bind_eq_ok.mpr ⟨_, rfl, bind_eq_ok.mpr ⟨_, hstates, ?_⟩⟩
  rw [hvals, hset]
  rfl

/-- What the queries of some states add to a set. -/
theorem mem_foldl_query {l : List State} {found : StateSet} {x : State} :
    x ∈ l.foldl (fun found s => found ∪ N.query s (.ofText a)) found ↔
      x ∈ found ∨ ∃ s ∈ l, x ∈ N.query s (.ofText a) := by
  induction l generalizing found with
  | nil => simp
  | cons s l ih => simp only [List.foldl_cons, ih, StateSet.mem_union, List.mem_cons, or_assoc,
      exists_eq_or_imp]

/-- **The moves from a set of states are those of its members.** -/
theorem moveValue_toValue (S : StateSet) (a : Symbol) :
    N.moveValue S.toValue (.text a) = .ok (N.move S (.ofText a)) := by
  have hfold : (S.elems.map Value.int).foldlM
      (fun found s => do return found ∪ (← N.queryValue s (.text a))) ∅ =
        .ok (S.elems.foldl (fun found s => found ∪ N.query s (.ofText a)) ∅) := by
    rw [List.foldlM_map]
    exact foldlM_eq_ok (fun _ _ _ => rfl) ∅
  refine hfold.trans (congrArg Except.ok (StateSet.ext fun x => ?_))
  rw [mem_foldl_query, mem_move_iff_query]
  exact or_iff_right (StateSet.notMem_empty x)

/-! ## Runs of a nondeterministic automaton -/

/-- The closed set after one symbol, unless a lookup is refused. -/
def checkedStep (N : Nfa) (S : StateSet) (a : Symbol) : Except Error StateSet := do
  N.closureValue (← N.moveValue S.toValue (.text a)).toValue

/-- **A step of the simulation is not refused**: whatever set it starts from, its moves lead to
states. -/
theorem checkedStep_eq (ha : a ∈ N.alphabet) : N.checkedStep S a = .ok (N.step S a) := by
  refine bind_eq_ok.mpr ⟨_, moveValue_toValue S a, ?_⟩
  rw [Label.ofText_of_mem ha]
  exact closureValue_toValue (within_move S _)

/-- The closed set in which every run starts, unless a lookup is refused. -/
def checkedStart (N : Nfa) : Except Error StateSet := N.closureValue (.list [.int N.start])

theorem checkedStart_eq (N : Nfa) : N.checkedStart = .ok N.startSet :=
  closureValue_toValue N.within_singleton_start

/-- The word is accepted from a closed set, unless a lookup is refused. -/
def checkedAcceptsFrom (N : Nfa) (S : StateSet) : List Symbol → Except Error Bool
  | [] => .ok (S.meets N.accepting)
  | a :: w =>
    if a ∈ N.alphabet then do
      let T ← N.checkedStep S a
      if T.isEmpty then return false else checkedAcceptsFrom N T w
    else .ok false

/-- **The word is accepted, unless a lookup is refused.** -/
def checkedAccepts (N : Nfa) (w : List Symbol) : Except Error Bool := do
  N.checkedAcceptsFrom (← N.checkedStart) w

theorem checkedAcceptsFrom_eq (S : StateSet) (w : List Symbol) :
    N.checkedAcceptsFrom S w = .ok (N.acceptsFrom S w) := by
  induction w generalizing S with
  | nil => rfl
  | cons a w ih =>
    rw [checkedAcceptsFrom, acceptsFrom]
    by_cases ha : a ∈ N.alphabet
    · rw [if_pos ha, if_pos ha, checkedStep_eq ha]
      change (if (N.step S a).isEmpty then pure false else _) = _
      by_cases hempty : (N.step S a).isEmpty = true
      · simp only [hempty, if_true]
        rfl
      · simp only [hempty]
        exact ih _
    · rw [if_neg ha, if_neg ha]

/-- **No lookup is refused when a word is run**, whatever its symbols are. -/
theorem checkedAccepts_eq (N : Nfa) (w : List Symbol) : N.checkedAccepts w = .ok (N.accepts w) :=
  bind_eq_ok.mpr ⟨_, N.checkedStart_eq, checkedAcceptsFrom_eq _ w⟩

end Nfa

/-! ## Runs of a deterministic automaton -/

namespace Dfa

variable {σ : Type} {D : Dfa σ} {i : Nat} {a : Symbol}

theorem stateAt_int (hi : i < D.size) : D.stateAt (.int i) = .ok D.states[i] := by
  have hplace : (Value.int i).toPlace D.states.length = .ok ⟨i, hi⟩ := Value.toPlace_int hi
  rw [stateAt, hplace]
  rfl

/-- A state lists a target or none for every symbol. -/
theorem exists_lookup_targets {q : DfaState σ} (hq : q ∈ D.states) (ha : a ∈ D.alphabet) :
    ∃ o, q.targets.lookup a = some o := by
  have hmem : a ∈ q.targets.map (·.1) := (D.states_fit q hq).symbols_perm.mem_iff.mpr ha
  obtain ⟨e, he, rfl⟩ := List.mem_map.mp hmem
  cases ho : q.targets.lookup e.1 with
  | none => exact absurd (List.lookup_eq_none_iff.mp ho e he) (by simp)
  | some o => exact ⟨o, rfl⟩

/-- **No state and no symbol is missing** when a state is asked for its target. -/
theorem queryValue_int (hi : i < D.size) (ha : a ∈ D.alphabet) :
    D.queryValue (.int i) (.text a) = .ok (D.target i a) := by
  obtain ⟨o, ho⟩ := exists_lookup_targets (List.getElem_mem hi) ha
  have htarget : D.target i a = o := by
    rw [target, List.getElem?_eq_getElem hi]
    exact congrArg (Option.bind · id) ho
  refine bind_eq_ok.mpr ⟨_, stateAt_int hi, bind_eq_ok.mpr ⟨(), rfl, ?_⟩⟩
  simp only [ho, htarget]
  rfl

theorem rowValue_int (hi : i < D.size) : D.rowValue (.int i) = .ok (D.row i) :=
  mapM_eq_ok_map fun _ ha => queryValue_int hi ha

variable [Identity σ]

theorem isAcceptingValue_int (hi : i < D.size) :
    D.isAcceptingValue (.int i) = .ok (D.isAccepting i) := by
  refine bind_eq_ok.mpr ⟨_, stateAt_int hi, ?_⟩
  rw [isAccepting, List.getElem?_eq_getElem hi]
  rfl

/-- The word is accepted from a state, unless a lookup is refused. -/
def checkedAcceptsFrom (D : Dfa σ) (i : Nat) : List Symbol → Except Error Bool
  | [] => D.isAcceptingValue (.int i)
  | a :: w =>
    if a ∈ D.alphabet then do
      match ← D.queryValue (.int i) (.text a) with
      | some j => checkedAcceptsFrom D j w
      | none => return false
    else .ok false

/-- **The word is accepted, unless a lookup is refused.** -/
def checkedAccepts (D : Dfa σ) (w : List Symbol) : Except Error Bool := D.checkedAcceptsFrom 0 w

theorem checkedAcceptsFrom_eq (hi : i < D.size) (w : List Symbol) :
    D.checkedAcceptsFrom i w = .ok (D.acceptsFrom i w) := by
  induction w generalizing i with
  | nil => exact isAcceptingValue_int hi
  | cons a w ih =>
    rw [checkedAcceptsFrom, acceptsFrom]
    by_cases ha : a ∈ D.alphabet
    · rw [if_pos ha, if_pos ha, queryValue_int hi ha]
      cases hj : D.target i a with
      | none => rfl
      | some j => exact ih (target_lt_size hj)
    · rw [if_neg ha, if_neg ha]

/-- **No lookup is refused when a word is run**, whatever its symbols are. -/
theorem checkedAccepts_eq (D : Dfa σ) (w : List Symbol) : D.checkedAccepts w = .ok (D.accepts w) :=
  checkedAcceptsFrom_eq D.size_pos w

end Dfa

end FiniteAutomata
