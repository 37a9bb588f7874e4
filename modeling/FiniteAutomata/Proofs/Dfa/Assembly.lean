import FiniteAutomata.Dfa.Assembly

/-!
# Proofs/Dfa/Assembly — states that fit are put together as they are given

A list of identities with their rows is given state by state, symbols as texts and targets as
numbers or nothing. If the identities are told apart, every row names each symbol once, and all
targets are among the states, then no check fails and the automaton has exactly these states
(`Dfa.ofStates_givenStates`).
-/

namespace FiniteAutomata

theorem Value.checkState_int {n : Nat} {i : Int} {field : Text} (h : 0 ≤ i ∧ i < n) :
    (Value.int i).checkState n field = .ok ⟨i, h⟩ := by
  simp only [checkState, checkInt]
  exact dif_pos h

namespace Dfa

variable {σ : Type} {n : Nat} {row : List (Symbol × Option Nat)}

/-! ## Targets -/

/-- A target as it is given: a number, or nothing. -/
def givenTarget : Option Nat → Value
  | some i => .int i
  | none => .null

/-- A row as it is given. -/
def givenTargets (row : List (Symbol × Option Nat)) : List (Value × Value) :=
  row.map fun e => (.text e.1, givenTarget e.2)

theorem map_plain_givenTargets (row : List (Symbol × Option Nat)) :
    (givenTargets row).map (fun e => e.1.plain) = row.map (·.1) := by
  simp [givenTargets, Value.plain, Function.comp_def]

theorem checkTarget_givenTarget {o : Option Nat} (ho : ∀ t, o = some t → t < n)
    (field : Text) :
    checkTarget n field (givenTarget o) = .ok ⟨o, ho⟩ := by
  cases o with
  | none => rfl
  | some t =>
    have ht : (0 : Int) ≤ t ∧ (t : Int) < n := ⟨Int.natCast_nonneg t, Int.ofNat_lt.mpr (ho t rfl)⟩
    simp only [givenTarget, checkTarget, Value.checkState_int ht]
    rfl

theorem checkTargets_givenTargets (hrow : ∀ e ∈ row, ∀ t, e.2 = some t → t < n)
    (field : Text) :
    ∃ h, checkTargets n field (givenTargets row) = .ok ⟨row, h⟩ := by
  induction row with
  | nil => exact ⟨⟨rfl, by simp⟩, rfl⟩
  | cons e row ih =>
    obtain ⟨ho, hrow⟩ := List.forall_mem_cons.mp hrow
    obtain ⟨h, hrest⟩ := ih hrow
    refine ⟨⟨(map_plain_givenTargets _).symm, List.forall_mem_cons.mpr ⟨ho, hrow⟩⟩, ?_⟩
    change (checkTarget n field (givenTarget e.2) >>= _) = _
    rw [checkTarget_givenTarget ho]
    change (checkTargets n field (givenTargets row) >>= _) = _
    rw [hrest]
    rfl

/-! ## States -/

variable [Identity σ] {A : Alphabet}

theorem namesSymbols_givenTargets (h : (row.map (·.1)).Perm A.symbols) :
    NamesSymbols A (givenTargets row) := by
  refine ⟨fun e he => ?_, by rwa [map_plain_givenTargets]⟩
  obtain ⟨p, _, rfl⟩ := List.mem_map.mp he
  rfl

theorem checkGiven_state {earlier : List σ} {x : σ}
    (hnew : ∀ y ∈ earlier, Identity.same y x = false) (hfit : (⟨x, row⟩ : DfaState σ).Fits n A) :
    checkGiven n A earlier (.state x (givenTargets row)) = .ok ⟨⟨x, row⟩, hfit⟩ := by
  obtain ⟨h, hrow⟩ := checkTargets_givenTargets hfit.targets_lt
    ("DFA.states[" ++ .spell earlier.length ++ "].transitions")
  have hnone : (earlier.findIdx? fun y => Identity.same y x) = none :=
    List.findIdx?_eq_none_iff.mpr hnew
  simp only [checkGiven, hnone, dif_pos (namesSymbols_givenTargets hfit.symbols_perm), hrow]
  rfl

/-- An identity with its row as a state. -/
def ofPair (p : σ × List (Symbol × Option Nat)) : DfaState σ := ⟨p.1, p.2⟩

/-- An identity with its row as it is given. -/
def givenPair (p : σ × List (Symbol × Option Nat)) : GivenState σ := .state p.1 (givenTargets p.2)

theorem checkAll_givenPair : ∀ {earlier : List σ} {ps : List (σ × List (Symbol × Option Nat))},
    (∀ p ∈ ps, ∀ y ∈ earlier, Identity.same y p.1 = false) →
    ps.Pairwise (fun p q => Identity.same p.1 q.1 = false) →
    (∀ p ∈ ps, (ofPair p).Fits n A) →
    ∃ h, checkAll n A earlier (ps.map givenPair) = .ok ⟨ps.map ofPair, h⟩
  | _, [], _, _, _ => ⟨⟨rfl, by simp⟩, rfl⟩
  | earlier, p :: ps, hnew, hdistinct, hfit => by
      obtain ⟨hp, hps⟩ := List.pairwise_cons.mp hdistinct
      obtain ⟨hfitp, hfitps⟩ := List.forall_mem_cons.mp hfit
      have hnew' : ∀ q ∈ ps, ∀ y ∈ earlier ++ [p.1], Identity.same y q.1 = false := by
        intro q hq y hy
        rcases List.mem_append.mp hy with hy | hy
        · exact hnew q (List.mem_cons_of_mem _ hq) y hy
        · exact List.mem_singleton.mp hy ▸ hp q hq
      obtain ⟨h, hrest⟩ := checkAll_givenPair hnew' hps hfitps
      have hall : ∀ q ∈ (p :: ps).map ofPair, q.Fits n A := List.forall_mem_map.mpr hfit
      refine ⟨⟨by simp, hall⟩, ?_⟩
      change (checkGiven n A earlier (.state p.1 (givenTargets p.2)) >>= _) = _
      rw [checkGiven_state (hnew p List.mem_cons_self) hfitp]
      change (checkAll n A (earlier ++ [p.1]) (ps.map givenPair) >>= _) = _
      rw [hrest]
      rfl

/-- **States that fit make an automaton**, which has exactly these states. -/
theorem ofStates_givenStates {ps : List (σ × List (Symbol × Option Nat))} {accepting : σ}
    (hne : ps ≠ []) (hdistinct : ps.Pairwise fun p q => Identity.same p.1 q.1 = false)
    (hfit : ∀ p ∈ ps, (ofPair p).Fits ps.length A) :
    ∃ D, ofStates (ps.map givenPair) A accepting = .ok D ∧ D.alphabet = A ∧
      D.states = ps.map ofPair ∧ D.accepting = accepting := by
  have hne' : ps.map (givenPair (σ := σ)) ≠ [] := by simpa using hne
  have hlen : (ps.map (givenPair (σ := σ))).length = ps.length := List.length_map _
  have hfirst : ∀ p ∈ ps, ∀ y ∈ ([] : List σ), Identity.same y p.1 = false := by simp
  obtain ⟨h, hall⟩ := checkAll_givenPair hfirst hdistinct (hlen.symm ▸ hfit)
  rw [ofStates, dif_neg hne', hall]
  exact ⟨_, rfl, rfl, rfl, rfl⟩

end Dfa

end FiniteAutomata
