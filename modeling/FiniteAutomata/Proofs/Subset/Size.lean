import FiniteAutomata.Proofs.Dfa.Alike
import FiniteAutomata.Proofs.Nfa.Query
import FiniteAutomata.Proofs.Subset.Limit
import Mathlib.Data.Set.Card

/-!
# Proofs/Subset/Size — how many states the subset construction makes, and which limits it meets

An exploration lists more and more sets, so it exceeds a limit on the way exactly when it has more
sets at its end (`Nfa.exploration_int`): what a limit makes of a construction depends only on the
size of the automaton that is made without one (`Nfa.toDfa_int`). That size is the number of sets to
which words lead, the empty one apart (`Nfa.wordSets`). There are fewer of these than sets of states
(`Nfa.ncard_wordSets_lt`).
-/

namespace FiniteAutomata

namespace Nfa

variable {N : Nfa} {m : Int} {S : StateSet}

/-! ## Outcomes up to a limit -/

/-- **What comes up where there are more states than an integer allows**: that there are, unless the
integer is too long for this to be written. -/
def pastLimit (m : Int) : Error :=
  if isLongInteger m then .unwritable .longInteger else .stateLimit (.int m)

theorem pastLimit_of_long (h : isLongInteger m) : pastLimit m = .unwritable .longInteger := if_pos h

theorem pastLimit_of_short (h : ¬ isLongInteger m) : pastLimit m = .stateLimit (.int m) := if_neg h

/-- The least power of ten that is too long, below zero. -/
theorem isLongInteger_neg_pow : isLongInteger (-(Nat.pow 10 Text.numeralLimit : Nat)) := by
  rw [isLongInteger, Int.natAbs_neg, Int.natAbs_natCast]
  exact decide_eq_true (Nat.le_refl _)

theorem ofLimit_int (m : Int) : Error.ofLimit (.int m) = pastLimit m := by
  rw [Error.ofLimit, Value.obstacles]
  by_cases hm : isLongInteger m
  · rw [obstacles_of_long hm, pastLimit_of_long hm]
    rfl
  · rw [obstacles_of_short hm, pastLimit_of_short hm]
    rfl

/-- **An outcome that comes with so many states**, unless these are more than the limit allows. -/
def capped {α : Type} (m : Int) (n : Nat) (x : α) : Except Error α :=
  if m < n then .error (pastLimit m) else .ok x

theorem capped_of_le {α : Type} {n : Nat} (h : (n : Int) ≤ m) (x : α) :
    capped m n x = .ok x := if_neg (Int.not_lt.mpr h)

theorem capped_of_lt {α : Type} {n : Nat} (h : m < n) (x : α) :
    capped m n x = .error (pastLimit m) := if_pos h

/-- What goes on with at least as many states is stopped where it would have been in the end. -/
theorem capped_bind {α β : Type} {n k : Nat} {x : α} {y : β} {f : α → Except Error β}
    (hnk : n ≤ k) (hf : (n : Int) ≤ m → f x = capped m k y) :
    (capped m n x >>= f) = capped m k y := by
  by_cases h : m < n
  · rw [capped_of_lt h, capped_of_lt (by omega)]
    rfl
  · rw [capped_of_le (Int.not_lt.mp h)]
    exact hf (Int.not_lt.mp h)

theorem capped_map {α β : Type} {n : Nat} {x : α} (f : α → β) :
    (capped m n x >>= fun x => .ok (f x)) = capped m n (f x) :=
  capped_bind (Nat.le_refl n) fun h => (capped_of_le h (f x)).symm

/-! ## Tables only grow -/

theorem size_le_of_visit : ∀ {symbols : List Symbol} {found : IdentityTable StateSet}
    {r : List (Symbol × Option Nat) × IdentityTable StateSet},
    N.visit .null S symbols found = .ok r → found.size ≤ r.2.size
  | [], _, _, h => by
      obtain rfl := Except.ok.inj h
      exact Nat.le_refl _
  | a :: rest, found, r, h => by
      by_cases hempty : N.step S a = ∅
      · rw [visit_cons_of_empty hempty] at h
        obtain ⟨r', hrest, hr⟩ := bind_eq_ok.mp h
        obtain rfl := Except.ok.inj hr
        exact size_le_of_visit (r := r') hrest
      · rw [visit_null_cons hempty] at h
        obtain ⟨r', hrest, hr⟩ := bind_eq_ok.mp h
        obtain rfl := Except.ok.inj hr
        have hle := size_le_of_visit hrest
        exact found.isPrefix_insert.length_le.trans hle

theorem size_le_of_explore : ∀ {k : Nat} {e e' : Exploration},
    N.explore .null k e = .ok e' → e.found.size ≤ e'.found.size
  | 0, _, _, h => by
      obtain rfl := Except.ok.inj h
      exact Nat.le_refl _
  | k + 1, e, e', h => by
      unfold explore at h
      cases hS : e.found.identities[e.rows.length]? with
      | none =>
        simp only [hS] at h
        obtain rfl := Except.ok.inj h
        exact Nat.le_refl _
      | some S =>
        simp only [hS] at h
        obtain ⟨r, hvisit, hrest⟩ := bind_eq_ok.mp h
        exact (size_le_of_visit hvisit).trans (size_le_of_explore hrest)

/-! ## The construction with a limit -/

/-- What comes after a comparison with the limit is reached up to the limit. -/
theorem exceeds_bind {α : Type} (n : Nat) (x : Except Error α) :
    (exceeds (.int m) n >>= fun exceeded =>
      if exceeded then throw (.ofLimit (.int m)) else x) = (capped m n () >>= fun _ => x) := by
  have hexceeds : exceeds (.int m) n = .ok (decide (m < n)) := rfl
  by_cases h : m < n
  · rw [hexceeds, decide_eq_true h, capped_of_lt h, ofLimit_int]
    rfl
  · rw [hexceeds, decide_eq_false h, capped_of_le (Int.not_lt.mp h)]
    rfl

/-- Looking a set up is let pass if the table that has it is within the limit. -/
theorem checkLimit_insert {found : IdentityTable StateSet} (h : (found.size : Int) ≤ m) :
    checkLimit (.int m) (found.insert S).2.1 (found.insert S).2.2.size =
      capped m (found.insert S).2.2.size () := by
  by_cases hS : S ∈ found.identities
  · obtain ⟨i, -, hinsert⟩ := IdentityTable.insert_of_mem hS
    rw [hinsert, capped_of_le h]
    rfl
  · rw [IdentityTable.insert_of_notMem hS]
    exact (exceeds_bind _ (.ok ())).trans (capped_map id)

/-- **A row is stopped by a limit** if the table that it leaves has more sets. -/
theorem visit_int : ∀ {symbols : List Symbol} {found : IdentityTable StateSet}
    {r : List (Symbol × Option Nat) × IdentityTable StateSet}, (found.size : Int) ≤ m →
    N.visit .null S symbols found = .ok r →
    N.visit (.int m) S symbols found = capped m r.2.size r
  | [], _, _, hm, h => by
      obtain rfl := Except.ok.inj h
      exact (capped_of_le hm _).symm
  | a :: rest, found, r, hm, h => by
      by_cases hempty : N.step S a = ∅
      · rw [visit_cons_of_empty hempty] at h ⊢
        obtain ⟨r', hrest, hr⟩ := bind_eq_ok.mp h
        obtain rfl := Except.ok.inj hr
        rw [visit_int hm hrest]
        exact capped_map _
      · rw [visit_null_cons hempty] at h
        obtain ⟨r', hrest, hr⟩ := bind_eq_ok.mp h
        obtain rfl := Except.ok.inj hr
        rw [visit_cons hempty]
        dsimp only
        rw [checkLimit_insert hm]
        refine capped_bind (size_le_of_visit hrest) fun hle => ?_
        rw [visit_int hle hrest]
        exact capped_map _

theorem explore_int : ∀ {k : Nat} {e e' : Exploration}, (e.found.size : Int) ≤ m →
    N.explore .null k e = .ok e' → N.explore (.int m) k e = capped m e'.found.size e'
  | 0, _, _, hm, h => by
      obtain rfl := Except.ok.inj h
      exact (capped_of_le hm _).symm
  | k + 1, e, e', hm, h => by
      unfold explore at h ⊢
      cases hS : e.found.identities[e.rows.length]? with
      | none =>
        simp only [hS] at h ⊢
        obtain rfl := Except.ok.inj h
        exact (capped_of_le hm _).symm
      | some S =>
        simp only [hS] at h ⊢
        obtain ⟨r, hvisit, hrest⟩ := bind_eq_ok.mp h
        rw [visit_int hm hvisit]
        exact capped_bind (size_le_of_explore hrest) fun hle => explore_int hle hrest

/-- **An exploration is stopped by a limit** if without one it finds more sets. -/
theorem exploration_int {e : Exploration} (h : N.exploration .null = .ok e) (m : Int) :
    N.exploration (.int m) = capped m e.found.size e := by
  have hfirst : (IdentityTable.empty.insert N.startSet).2.2.size = 1 := by
    rw [IdentityTable.insert_of_notMem (by simp [IdentityTable.empty])]
    rfl
  obtain ⟨exceeded, hnull, hrun⟩ := bind_eq_ok.mp h
  obtain rfl := Except.ok.inj hnull
  have hpos : 1 ≤ e.found.size := hfirst ▸ size_le_of_explore hrun
  have hcheck : N.exploration (.int m) = (capped m 1 () >>= fun _ =>
      N.explore (.int m) (N.subsetBound + 1) ⟨(IdentityTable.empty.insert N.startSet).2.2, []⟩) :=
    exceeds_bind 1 _
  rw [hcheck]
  exact capped_bind hpos fun hle => explore_int (hfirst.symm ▸ hle) hrun

/-- **The construction is stopped by a limit** if without one it makes more states. -/
theorem toDfa_int {D : Dfa StateSet} (h : N.toDfa .null = .ok D) (m : Int) :
    N.toDfa (.int m) = capped m D.size D := by
  obtain ⟨e, he, hD⟩ := bind_eq_ok.mp h
  obtain ⟨D', hD', -, hstates, -⟩ := exists_toDfa_of_exploration he
  obtain rfl : D = D' := Except.ok.inj (h.symm.trans hD')
  obtain ⟨e', he', -, hlen⟩ := N.exists_exploration
  obtain rfl : e = e' := Except.ok.inj (he.symm.trans he')
  have hsize : D.size = e.found.size := by
    rw [Dfa.size, hstates, List.length_map]
    exact Sound.length_found hlen
  rw [toDfa, exploration_int he, hsize]
  exact capped_bind (Nat.le_refl _) fun hle => hD.trans (capped_of_le hle D).symm

/-! ## Counting sets of states -/

/-- **The sets of states to which words lead**, except the empty one. -/
def wordSets (N : Nfa) : Set StateSet :=
  {S | S ≠ ∅ ∧ ∃ w, (∀ a ∈ w, a ∈ N.alphabet) ∧ N.Reaches w S}

/-- The set of all states. -/
def stateSet (N : Nfa) : StateSet where
  elems := N.states
  ascending := by
    refine List.pairwise_map.mpr (List.pairwise_lt_range.imp fun h => ?_)
    exact Int.ofNat_lt.mpr h

theorem mem_stateSet {s : State} (h : InRange N.stateCount s) : s ∈ N.stateSet := by
  obtain ⟨i, rfl⟩ := Int.eq_ofNat_of_zero_le h.1
  exact List.mem_map_of_mem (List.mem_range.mpr (Int.ofNat_lt.mp h.2))

namespace IsSubsetAutomaton

variable {D : Dfa StateSet} (h : N.IsSubsetAutomaton D)

include h

theorem coe_identities : (D.identities.toFinset : Set StateSet) = N.wordSets := by
  ext S
  exact List.mem_toFinset.trans h.mem_identities_iff

/-- **There is a state for each set to which a word leads.** -/
theorem ncard_wordSets : N.wordSets.ncard = D.size := by
  rw [← h.coe_identities, Set.ncard_coe_finset, List.toFinset_card_of_nodup h.explored.nodup,
    Dfa.length_identities]

/-- **There are fewer states than sets of states**, as the empty set is none. -/
theorem size_lt_two_pow : D.size < 2 ^ N.stateCount := by
  have hempty : ∅ ∉ D.identities := fun hmem => h.explored.ne_empty ∅ hmem rfl
  have hnodup : (∅ :: D.identities).Nodup := List.nodup_cons.mpr ⟨hempty, h.explored.nodup⟩
  have hsub : ∀ S ∈ ∅ :: D.identities, ∀ s ∈ S, s ∈ N.stateSet := by
    refine List.forall_mem_cons.mpr ⟨fun s hs => absurd hs (StateSet.notMem_empty s), ?_⟩
    intro S hS s hs
    obtain ⟨-, w, -, hw⟩ := h.mem_identities_iff.mp hS
    obtain rfl := reaches_iff.mp hw
    exact mem_stateSet (within_reach w s hs)
  have hlength : N.stateSet.elems.length = N.stateCount := by simp [stateSet, states]
  calc
    D.size < (∅ :: D.identities).length := by
      rw [List.length_cons, Dfa.length_identities]
      exact Nat.lt_succ_self _
    _ ≤ 2 ^ N.stateCount := hlength ▸ StateSet.length_le_two_pow hnodup hsub

end IsSubsetAutomaton

theorem finite_wordSets (N : Nfa) : N.wordSets.Finite := by
  obtain ⟨D, -, h⟩ := N.exists_toDfa
  rw [← h.coe_identities]
  exact D.identities.toFinset.finite_toSet

end Nfa

end FiniteAutomata
