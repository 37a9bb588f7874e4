import FiniteAutomata.Proofs.Outcome
import FiniteAutomata.Proofs.Subset.Automaton

/-!
# Proofs/Subset/Limit — a limit stops the subset construction or changes nothing

A limit is looked at only when a set turns up that is new (`Nfa.checkLimit`). So an exploration that
a limit lets pass is the one without a limit (`Nfa.exploration_null_of_ok`), and the construction
yields an automaton exactly when the exploration ends (`Nfa.exists_toDfa_of_exploration`).
-/

namespace FiniteAutomata

namespace Nfa

variable {N : Nfa} {limit : Value} {S : StateSet} {found : IdentityTable StateSet}

/-- Lets a set pass that brings the number of sets to `n`, if it is new, unless the limit is
exceeded. -/
def checkLimit (limit : Value) (isNew : Bool) (n : Nat) : Except Error Unit :=
  if isNew then do
    if ← exceeds limit n then throw (.ofLimit limit)
  else .ok ()

theorem checkLimit_null (isNew : Bool) (n : Nat) : checkLimit .null isNew n = .ok () := by
  cases isNew <;> rfl

/-- **The row of a set goes on with the set that the next symbol leads to**, if that is let pass. -/
theorem visit_cons {a : Symbol} {rest : List Symbol} (hne : N.step S a ≠ ∅) :
    N.visit limit S (a :: rest) found = (do
      let known := found.insert (N.step S a)
      checkLimit limit known.2.1 known.2.2.size
      let r ← N.visit limit S rest known.2.2
      return ((a, some known.1) :: r.1, r.2)) := by
  have hempty : (N.step S a).isEmpty = false :=
    Bool.eq_false_iff.mpr fun he => hne (StateSet.isEmpty_iff.mp he)
  rw [visit, hempty, if_neg Bool.false_ne_true]
  obtain ⟨i, isNew, found'⟩ := found.insert (N.step S a)
  cases isNew with
  | false => rfl
  | true =>
    simp only [checkLimit, if_true]
    cases exceeds limit found'.size with
    | error e => rfl
    | ok exceeded => cases exceeded <;> rfl

/-- **A row that a limit lets pass is the row without a limit.** -/
theorem visit_null_of_ok : ∀ {symbols : List Symbol} {found : IdentityTable StateSet}
    {r : List (Symbol × Option Nat) × IdentityTable StateSet},
    N.visit limit S symbols found = .ok r → N.visit .null S symbols found = .ok r
  | [], _, _, h => h
  | a :: rest, found, r, h => by
      by_cases hempty : N.step S a = ∅
      · rw [visit_cons_of_empty hempty] at h ⊢
        obtain ⟨r', hrest, hr⟩ := bind_eq_ok.mp h
        exact bind_eq_ok.mpr ⟨r', visit_null_of_ok hrest, hr⟩
      · rw [visit_cons hempty] at h ⊢
        obtain ⟨-, -, h⟩ := bind_eq_ok.mp h
        obtain ⟨r', hrest, hr⟩ := bind_eq_ok.mp h
        refine bind_eq_ok.mpr ⟨(), checkLimit_null _ _, bind_eq_ok.mpr ⟨r', ?_, hr⟩⟩
        exact visit_null_of_ok hrest

theorem explore_null_of_ok : ∀ {k : Nat} {e e' : Exploration},
    N.explore limit k e = .ok e' → N.explore .null k e = .ok e'
  | 0, _, _, h => h
  | k + 1, e, e', h => by
      unfold explore at h ⊢
      cases hS : e.found.identities[e.rows.length]? with
      | none => simpa only [hS] using h
      | some S =>
        simp only [hS] at h ⊢
        obtain ⟨r, hvisit, hrest⟩ := bind_eq_ok.mp h
        exact bind_eq_ok.mpr ⟨r, visit_null_of_ok hvisit, explore_null_of_ok hrest⟩

/-- **An exploration that a limit lets pass is the one without a limit.** -/
theorem exploration_null_of_ok {e : Exploration} (h : N.exploration limit = .ok e) :
    N.exploration .null = .ok e := by
  obtain ⟨exceeded, -, h⟩ := bind_eq_ok.mp h
  refine bind_eq_ok.mpr ⟨false, rfl, ?_⟩
  cases exceeded with
  | true => nomatch h
  | false => exact explore_null_of_ok h

/-- **An exploration that has ended is put together as an automaton**: its sets are the identities,
and its rows the targets. -/
theorem exists_toDfa_of_exploration {e : Exploration} (he : N.exploration limit = .ok e) :
    ∃ D, N.toDfa limit = .ok D ∧ D.alphabet = N.alphabet ∧
      D.states = (Nfa.found e).map Dfa.ofPair ∧ D.accepting = N.accepting := by
  obtain ⟨e', hrun, h, hlen⟩ := N.exists_exploration
  obtain rfl : e = e' := Except.ok.inj ((exploration_null_of_ok he).symm.trans hrun)
  obtain ⟨D, hD, hparts⟩ := Dfa.ofStates_givenStates
    (h.found_ne_nil hlen) (h.pairwise_found hlen) (h.fits_of_mem_found hlen)
  refine ⟨D, bind_eq_ok.mpr ⟨e, he, ?_⟩, hparts⟩
  rw [givenStates_eq, hD]

/-- **An automaton that a limit lets pass is the one without a limit.** -/
theorem toDfa_null_of_ok {D : Dfa StateSet} (h : N.toDfa limit = .ok D) :
    N.toDfa .null = .ok D := by
  obtain ⟨e, he, hD⟩ := bind_eq_ok.mp h
  exact bind_eq_ok.mpr ⟨e, exploration_null_of_ok he, hD⟩

end Nfa

end FiniteAutomata
