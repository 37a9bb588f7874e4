import FiniteAutomata.Proofs.Checked.Simulation

/-!
# Proofs/Checked/Refinement — pairs of states are compared without any lookup being refused

Comparing pairs looks up whether states accept, their targets, and marks of pairs, all by number.
The checked comparison passes on the error of any lookup that points outside. The targets of states
and of the sink are states or the sink (`Dfa.checkedRows_eq`), so every pair that comes up has a
mark, and the checked comparison is the plain one (`Dfa.checkedRefinement_eq`).
-/

namespace FiniteAutomata

/-! ## Marks -/

namespace Marks

variable {n i j : Nat} {m : Marks n}

/-- The pair is marked, unless it is none of those below the bound. -/
def checkedHas (m : Marks n) (i j : Nat) : Except Error Bool :=
  if i < n ∧ j < n then .ok (m.has i j) else .error .outOfRange

/-- The marks with one more pair, unless it is none of those below the bound. -/
def checkedMark (m : Marks n) (i j : Nat) : Except Error (Marks n) :=
  if i < n ∧ j < n then .ok (m.mark i j) else .error .outOfRange

theorem checkedHas_eq (hi : i < n) (hj : j < n) : m.checkedHas i j = .ok (m.has i j) :=
  if_pos ⟨hi, hj⟩

theorem checkedMark_eq (hi : i < n) (hj : j < n) : m.checkedMark i j = .ok (m.mark i j) :=
  if_pos ⟨hi, hj⟩

end Marks

/-- Both numbers of a pair are below the bound. -/
theorem lt_of_mem_pairsBelow {n : Nat} {p : Nat × Nat} (hp : p ∈ pairsBelow n) :
    p.1 < n ∧ p.2 < n :=
  have h := mem_pairsBelow.mp hp
  ⟨Nat.lt_trans h.1 h.2, h.2⟩

namespace Dfa

variable {σ : Type}

/-! ## The checked comparison -/

/-- The values of all states and the sink. -/
def withSink {α : Type} (D : Dfa σ) (f : Nat → α) : List α := (List.range (D.size + 1)).map f

/-- For each state and the sink, the targets on all symbols, unless a lookup is refused. -/
def checkedRows (D : Dfa σ) : Except Error (List (List Nat)) := do
  let rows ← (List.range D.size).mapM fun (i : Nat) => do
    return (← D.rowValue (.int i)).map fun o => o.getD D.sink
  return rows ++ [D.alphabet.symbols.map fun _ => D.sink]

/-- The first of some symbols, with their places, on which two states, whose targets are given, lead
to a marked pair, unless a lookup is refused. -/
def checkedPartingSymbol? (D : Dfa σ) (marks : D.StateMarks) (p q : List Nat) :
    List (Symbol × Nat) → Except Error (Option Symbol)
  | [] => .ok none
  | e :: rest => do
    let t ← entryAt p e.2
    let u ← entryAt q e.2
    if t != u then
      if ← marks.checkedHas t u then return some e.1
    checkedPartingSymbol? D marks p q rest

/-- Marks one pair if it is not marked and some symbol leads it to a marked pair, unless a lookup is
refused. -/
def checkedTryPair (D : Dfa σ) (rows : List (List Nat)) (k : Nat) (s : D.Progress)
    (p : Nat × Nat) : Except Error D.Progress := do
  if ← s.marks.checkedHas p.1 p.2 then return s
  let first ← entryAt rows p.1
  let second ← entryAt rows p.2
  match ← D.checkedPartingSymbol? s.marks first second D.alphabet.symbols.zipIdx with
  | some a => return ⟨← s.marks.checkedMark p.1 p.2, ⟨k, p.1, p.2, a⟩ :: s.splits⟩
  | none => return s

/-- Passes from the `k`-th on, at most so many more, until one marks nothing, unless a lookup is
refused. -/
def checkedPassesFrom (D : Dfa σ) (rows : List (List Nat)) :
    Nat → Nat → D.Progress → Except Error D.Refinement
  | 0, k, s => .ok ⟨s.marks, s.splits.reverse, k⟩
  | fuel + 1, k, s => do
    let t ← (pairsBelow (D.size + 1)).foldlM (D.checkedTryPair rows k) s
    if t.splits.length = s.splits.length then return ⟨t.marks, t.splits.reverse, k⟩
    else checkedPassesFrom D rows fuel (k + 1) t

/-! ## Targets and marks -/

variable {D : Dfa σ} {i : Nat}

theorem map_range_append_sink {α : Type} (f : Nat → α) :
    (List.range D.size).map f ++ [f D.sink] = D.withSink f := by
  rw [withSink, List.range_succ, List.map_append]
  rfl

theorem entryAt_withSink {α : Type} (f : Nat → α) (hi : i < D.size + 1) :
    entryAt (D.withSink f) i = .ok (f i) :=
  entryAt_eq_ok (by rw [withSink, List.getElem?_map, List.getElem?_range hi]; rfl)

/-- The targets of a state on all symbols. -/
def targetsOrSink (D : Dfa σ) (i : Nat) : List Nat := D.alphabet.symbols.map (D.targetOrSink i)

/-- **The targets of states and the sink are looked up without refusal.** -/
theorem checkedRows_eq (D : Dfa σ) : D.checkedRows = .ok (D.withSink D.targetsOrSink) := by
  have hrow : ∀ i ∈ List.range D.size,
      (do return (← D.rowValue (.int (i : Nat))).map fun o => o.getD D.sink) =
        Except.ok (ε := Error) (D.targetsOrSink i) := fun i hi =>
    bind_eq_ok.mpr ⟨_, rowValue_int (List.mem_range.mp hi), congrArg Except.ok (List.map_map ..)⟩
  have hsink : (D.alphabet.symbols.map fun _ => D.sink) = D.targetsOrSink D.sink :=
    List.map_congr_left fun a _ =>
      (targetOrSink_of_none (target_of_size_le (Nat.le_refl D.size))).symm
  refine bind_eq_ok.mpr ⟨_, mapM_eq_ok_map hrow, ?_⟩
  rw [hsink, map_range_append_sink]
  rfl

/-! ## Passes -/

/-- **A parting symbol is looked for without refusal**, if the targets under the places of all
symbols are states or the sink. -/
theorem checkedPartingSymbol?_eq {m : D.StateMarks} {p q : List Nat} {f g : Symbol → Nat}
    {l : List (Symbol × Nat)}
    (hl : ∀ e ∈ l, (p[e.2]? = some (f e.1) ∧ f e.1 < D.size + 1) ∧
      q[e.2]? = some (g e.1) ∧ g e.1 < D.size + 1) :
    D.checkedPartingSymbol? m p q l =
      .ok ((l.find? fun e => f e.1 != g e.1 && m.has (f e.1) (g e.1)).map (·.1)) := by
  induction l with
  | nil => rfl
  | cons e l ih =>
    obtain ⟨⟨⟨hp, hf⟩, hq, hg⟩, hl⟩ := List.forall_mem_cons.mp hl
    refine bind_eq_ok.mpr ⟨_, entryAt_eq_ok hp, bind_eq_ok.mpr ⟨_, entryAt_eq_ok hq, ?_⟩⟩
    rw [List.find?_cons]
    cases hne : f e.1 != g e.1 with
    | false => exact ih hl
    | true =>
      rw [if_pos rfl, Bool.true_and]
      refine bind_eq_ok.mpr ⟨_, Marks.checkedHas_eq hf hg, ?_⟩
      cases m.has (f e.1) (g e.1) with
      | false => exact ih hl
      | true => rfl

/-- **The parting symbol of two states is looked for without refusal.** -/
theorem checkedPartingSymbol?_targetsOrSink (m : D.StateMarks) {i j : Nat} (hi : i < D.size + 1)
    (hj : j < D.size + 1) :
    D.checkedPartingSymbol? m (D.targetsOrSink i) (D.targetsOrSink j) D.alphabet.symbols.zipIdx =
      .ok (D.partingSymbol? m (D.targetRows.getD i #[]) (D.targetRows.getD j #[])) := by
  have hget : ∀ k, ∀ e ∈ D.alphabet.symbols.zipIdx,
      (D.targetsOrSink k)[e.2]? = some (D.targetOrSink k e.1) ∧
        D.targetOrSink k e.1 < D.size + 1 := fun k e he => by
    rw [targetsOrSink, List.getElem?_map, List.mem_zipIdx_iff_getElem?.mp he]
    exact ⟨rfl, Nat.lt_succ_of_le (targetOrSink_le_size k e.1)⟩
  rw [checkedPartingSymbol?_eq fun e he => ⟨hget i e he, hget j e he⟩,
    partingSymbol?_targetRows m (Nat.le_of_lt_succ hi) (Nat.le_of_lt_succ hj)]
  exact congrArg Except.ok (map_find?_zipIdx _ fun _ _ _ => rfl)

/-- **A pair is tried without refusal.** -/
theorem checkedTryPair_eq {k : Nat} {s : D.Progress} {p : Nat × Nat}
    (hp : p ∈ pairsBelow (D.size + 1)) :
    D.checkedTryPair (D.withSink D.targetsOrSink) k s p = .ok (D.tryPair D.targetRows k s p) := by
  obtain ⟨hi, hj⟩ := lt_of_mem_pairsBelow hp
  refine bind_eq_ok.mpr ⟨_, Marks.checkedHas_eq hi hj, ?_⟩
  rw [tryPair]
  cases s.marks.has p.1 p.2 with
  | true => rfl
  | false =>
    refine bind_eq_ok.mpr ⟨_, entryAt_withSink _ hi, bind_eq_ok.mpr ⟨_, entryAt_withSink _ hj,
      bind_eq_ok.mpr ⟨_, checkedPartingSymbol?_targetsOrSink _ hi hj, ?_⟩⟩⟩
    cases D.partingSymbol? s.marks (D.targetRows.getD p.1 #[]) (D.targetRows.getD p.2 #[]) with
    | none => rfl
    | some a => exact bind_eq_ok.mpr ⟨_, Marks.checkedMark_eq hi hj, rfl⟩

theorem checkedPassesFrom_eq {fuel k : Nat} {s : D.Progress} :
    D.checkedPassesFrom (D.withSink D.targetsOrSink) fuel k s =
      .ok (D.passesFrom D.targetRows fuel k s) := by
  induction fuel generalizing k s with
  | zero => rfl
  | succ fuel ih =>
    refine bind_eq_ok.mpr ⟨_, foldlM_eq_ok (fun _ _ hp => checkedTryPair_eq hp) s, ?_⟩
    rw [passesFrom, pass]
    split
    · rfl
    · exact ih

/-! ## Accepting states -/

variable [Identity σ]

/-- For each state and the sink whether it accepts, unless a lookup is refused. -/
def checkedAccepting (D : Dfa σ) : Except Error (List Bool) := do
  return (← (List.range D.size).mapM fun (i : Nat) => D.isAcceptingValue (.int i)) ++ [false]

/-- The pairs of which one accepts and the other does not, unless a lookup is refused. -/
def checkedInitialMarks (D : Dfa σ) (accepting : List Bool) : Except Error D.StateMarks :=
  (pairsBelow (D.size + 1)).foldlM (fun m p => do
    let first ← entryAt accepting p.1
    let second ← entryAt accepting p.2
    if first != second then m.checkedMark p.1 p.2 else return m) .none

/-- **The comparison of all pairs of states, unless a lookup is refused.** -/
def checkedRefinement (D : Dfa σ) (accepting : List Bool) : Except Error D.Refinement := do
  let rows ← D.checkedRows
  let marks ← D.checkedInitialMarks accepting
  D.checkedPassesFrom rows (pairsBelow (D.size + 1)).length 1 ⟨marks, []⟩

/-- **Whether states and the sink accept is looked up without refusal.** -/
theorem checkedAccepting_eq (D : Dfa σ) : D.checkedAccepting = .ok (D.withSink D.isAccepting) := by
  have hsink : D.isAccepting D.sink = false := isAccepting_of_size_le (Nat.le_refl D.size)
  refine bind_eq_ok.mpr ⟨_, mapM_eq_ok_map fun i hi =>
    isAcceptingValue_int (List.mem_range.mp hi), ?_⟩
  rw [← map_range_append_sink, hsink]
  rfl

theorem checkedInitialMarks_eq (D : Dfa σ) :
    D.checkedInitialMarks (D.withSink D.isAccepting) = .ok D.initialMarks := by
  refine foldlM_eq_ok (fun m p hp => ?_) _
  obtain ⟨hi, hj⟩ := lt_of_mem_pairsBelow hp
  refine bind_eq_ok.mpr ⟨_, entryAt_withSink _ hi, bind_eq_ok.mpr ⟨_, entryAt_withSink _ hj, ?_⟩⟩
  rw [Marks.checkedMark_eq hi hj]
  split <;> rfl

/-- **All pairs are compared without refusal.** -/
theorem checkedRefinement_eq (D : Dfa σ) :
    D.checkedRefinement (D.withSink D.isAccepting) = .ok D.refinement :=
  bind_eq_ok.mpr ⟨_, D.checkedRows_eq, bind_eq_ok.mpr ⟨_, D.checkedInitialMarks_eq,
    checkedPassesFrom_eq⟩⟩

end Dfa

end FiniteAutomata
