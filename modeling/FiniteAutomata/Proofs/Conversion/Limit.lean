import FiniteAutomata.Proofs.Conversion.Canonical
import FiniteAutomata.Proofs.Conversion.Events
import FiniteAutomata.Proofs.Subset.Size

/-!
# Proofs/Conversion/Limit — what a limit does to the subset construction

A limit refuses the construction if words lead to more sets of states than it allows, and else
leaves no mark on it, whatever is recorded on the way (`Nfa.toDfaTraced_int`). `Nfa.toDfa_limit`
says this of every limit together with how many sets there can be. The refusal names the limit, so a
limit that is too long to be written is refused without it (`Nfa.toDfa_headed`).
-/

namespace FiniteAutomata

namespace Nfa

variable {N : Nfa} {D : Dfa StateSet}

/-- **A recorded construction is stopped by a limit, or goes on as it does without one.** -/
theorem toDfaTraced_int (h : N.toDfa .null = .ok D) (l : Level) (m : Int) :
    N.toDfaTraced l (.int m) =
      if m < D.size then ⟨.error (pastLimit m), []⟩ else N.toDfaTraced l .null := by
  have hlimit := toDfa_int h m
  by_cases hlt : m < D.size
  · rw [capped_of_lt hlt] at hlimit
    rw [toDfaTraced, hlimit, if_pos hlt]
  · rw [capped_of_le (Int.not_lt.mp hlt)] at hlimit
    rw [toDfaTraced, hlimit, if_neg hlt, toDfaTraced, h]

/-- Without a limit a recorded construction succeeds, unless its table has to be drawn and cannot
be. -/
theorem outcome_toDfaTraced_null_iff (h : N.toDfa .null = .ok D) (l : Level) :
    (N.toDfaTraced l .null).outcome = .ok D ↔ (l = .debug → D.HasSubsetTable) := by
  by_cases hl : l = .debug
  · subst hl
    rw [← h, outcome_toDfaTraced_debug_eq_iff]
    simp only [h, Except.ok.injEq, forall_eq', forall_const]
  · exact iff_of_true ((outcome_toDfaTraced_of_ne hl .null N).trans h) fun hd => absurd hd hl

/-- **A limit is exceeded exactly if words lead to more sets of states, and changes nothing else.**
Words lead to at least one set that is not empty, and to fewer than there are sets of states. The
exploration always ends, with a row for each of these sets; with a limit below their number the
construction is refused with that limit, or, if the limit is too long to be written, with this. With
any other limit it yields the automaton that it yields without one, so a limit of one less than all
sets of states never stops it. What is recorded makes no difference to this, but at the least level
the table of the construction has to be drawn. -/
theorem toDfa_limit (N : Nfa) :
    N.wordSets.Finite ∧ 1 ≤ N.wordSets.ncard ∧ N.wordSets.ncard ≤ 2 ^ N.stateCount - 1 ∧
    (∃ e, N.exploration .null = .ok e ∧ e.rows.length = e.found.size) ∧
    ∃ D, N.toDfa .null = .ok D ∧ D.size = N.wordSets.ncard ∧
      (∀ m : Int, N.toDfa (.int m) =
        if m < N.wordSets.ncard then .error (pastLimit m) else .ok D) ∧
      (∀ m : Int, 2 ^ N.stateCount - 1 ≤ m → N.toDfa (.int m) = .ok D) ∧
      (∀ (l : Level) (m : Int), N.toDfaTraced l (.int m) =
        if m < N.wordSets.ncard then ⟨.error (pastLimit m), []⟩ else N.toDfaTraced l .null) ∧
      ∀ l : Level, (N.toDfaTraced l .null).outcome = .ok D ↔ (l = .debug → D.HasSubsetTable) := by
  obtain ⟨D, hD, h⟩ := N.exists_toDfa
  obtain ⟨e, he, -, hlen⟩ := N.exists_exploration
  have hlt := h.size_lt_two_pow
  rw [h.ncard_wordSets]
  refine ⟨N.finite_wordSets, D.size_pos, Nat.le_sub_one_of_lt hlt, ⟨e, he, hlen⟩,
    D, hD, rfl, toDfa_int hD, fun m hm => ?_, toDfaTraced_int hD, outcome_toDfaTraced_null_iff hD⟩
  have hle : (D.size : Int) ≤ m := by
    have hlt' : (D.size : Int) < 2 ^ N.stateCount := by exact_mod_cast hlt
    omega
  exact (toDfa_int hD m).trans (capped_of_le hle D)

theorem toDfa_limit_swap : (2 : Int) ^ swap.stateCount - 1 ≤ 3 ∧
    ∃ D, swap.toDfa .null = .ok D ∧ swap.toDfa (.int 3) = .ok D := by
  have hle : (2 : Int) ^ swap.stateCount - 1 ≤ 3 := by decide
  obtain ⟨-, -, -, -, D, hD, -, -, hlarge, -⟩ := toDfa_limit swap
  exact ⟨hle, D, hD, hlarge 3 hle⟩

/-- **Two limits that are not dealt with as limits are**, for an automaton of one state. One that is
too long to be written is exceeded, and what comes up is no complaint about a limit. One that allows
for all sets of states is not exceeded, but at the least level the construction fails with the table
it draws. -/
theorem toDfa_headed :
    headed.toDfa (.int (-(Nat.pow 10 Text.numeralLimit))) = .error (.unwritable .longInteger) ∧
    (2 : Int) ^ headed.stateCount - 1 ≤ 1 ∧
    (headed.toDfaTraced .debug (.int 1)).outcome = .error (.unwritable .repeatedHeading) := by
  obtain ⟨D, hD, h⟩ := headed.exists_toDfa
  have hpos := D.size_pos
  have hlt : D.size < 2 := h.size_lt_two_pow
  refine ⟨?_, by decide, ?_⟩
  · rw [toDfa_int hD, capped_of_lt (by omega), pastLimit_of_long isLongInteger_neg_pow]
  · rw [toDfaTraced_int hD, if_neg (by omega)]
    exact outcome_toDfaTraced_of_clash (by decide)

end Nfa

end FiniteAutomata
