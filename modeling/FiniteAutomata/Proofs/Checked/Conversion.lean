import FiniteAutomata.Proofs.Checked.Quotient
import FiniteAutomata.Proofs.Checked.Subset
import FiniteAutomata.Proofs.Conversion.Events

/-!
# Proofs/Checked/Conversion — nothing is refused on the way from an automaton to its minimized form

The checked constructions put together make a checked conversion, which passes on whatever error
comes up on its way; it is the plain one (`Amended.checkedConvert_eq`). `core_not_refused` states
that nothing comes up. Of an automaton as it was built, no word is refused, nor the subset
construction without a limit, nor minimization, nor a conversion, be it recorded or not, except at
the level at which a table is drawn. Of a deterministic automaton, however it was put together, no
word and no row is refused, nor minimization, nor anything that its minimized form is asked for.
-/

namespace FiniteAutomata

/-- **The conversion of an automaton, unless a lookup or a check is refused.** -/
def Amended.checkedConvert (M : Amended) : Except Error Conversion := do
  M.validate
  let D ← M.base.checkedToDfa
  return ⟨D, ← D.checkedMinimize⟩

/-- **A conversion is refused only by the checks of its automaton.** -/
theorem Amended.checkedConvert_eq (M : Amended) : M.checkedConvert = M.convert .null := by
  rw [checkedConvert, convert, M.base.checkedToDfa_eq]
  simp only [Dfa.checkedMinimize_eq]
  rfl

/-- **No lookup and no check is refused** in running words, in the subset construction without a
limit, in minimization, in making the minimized form an automaton with states, or in a whole
conversion, unless it draws a table for the least level. -/
theorem core_not_refused :
    (∀ N : Nfa,
      (∀ w, N.checkedAccepts w = .ok (N.accepts w)) ∧
      ∃ D, N.checkedToDfa = .ok D ∧ N.toDfa .null = .ok D ∧
        D.checkedMinimize = .ok D.minimize ∧
        (Amended.ofNfa N).checkedConvert = .ok ⟨D, D.minimize⟩ ∧
        ∀ l : Level, l ≠ .debug →
          (N.toDfaTraced l .null).outcome = .ok D ∧
          ((Amended.ofNfa N).convertTraced l .null).outcome = .ok ⟨D, D.minimize⟩) ∧
    ∀ (σ : Type) [Identity σ] (D : Dfa σ),
      (∀ w, D.checkedAccepts w = .ok (D.accepts w)) ∧
      (∀ i < D.size, D.rowValue (.int i) = .ok (D.row i)) ∧
      D.checkedMinimize = .ok D.minimize ∧
      (∀ w, D.minimize.accepts w = .ok (D.accepts w)) ∧
      ∃ E, D.minimize.toDfa = .ok E := by
  refine ⟨fun N => ⟨N.checkedAccepts_eq, ?_⟩, fun σ _ D => ⟨D.checkedAccepts_eq,
    fun _ hi => Dfa.rowValue_int hi, D.checkedMinimize_eq, D.accepts_minimize, ?_⟩⟩
  · obtain ⟨D, hD, -⟩ := N.exists_toDfa
    have hconvert : (Amended.ofNfa N).convert .null = .ok ⟨D, D.minimize⟩ :=
      bind_eq_ok.mpr ⟨(), Amended.validate_ofNfa N, bind_eq_ok.mpr ⟨D, hD, rfl⟩⟩
    refine ⟨D, N.checkedToDfa_eq.trans hD, hD, D.checkedMinimize_eq,
      (Amended.checkedConvert_eq _).trans hconvert, fun l hl => ⟨?_, ?_⟩⟩
    · rw [Nfa.outcome_toDfaTraced_of_ne hl, hD]
    · rw [Amended.outcome_convertTraced_of_ne hl, hconvert]
  · exact D.wellFormed_minimize.exists_toDfa
      (Dfa.lt_classCount_iff.mpr ⟨0, D.size_pos, D.classOf_zero⟩)

end FiniteAutomata
