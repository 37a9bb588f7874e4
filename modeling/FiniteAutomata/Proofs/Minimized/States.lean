import FiniteAutomata.Proofs.Dfa.Rows
import FiniteAutomata.Proofs.Minimized.Live

/-!
# Proofs/Minimized/States — classes as states of an automaton

An automaton with a row for each class can be made one with states, and that has the same moves and
accepts in the same states (`Minimized.WellFormed.exists_isOfClasses`); so from each state is
accepted what is accepted from the class (`Dfa.IsOfClasses.acceptsFrom_eq`).
-/

namespace FiniteAutomata

/-- **The states of the automaton are the classes**, with their moves and accepting as they do. -/
structure Dfa.IsOfClasses (E : Dfa StateSet) (M : Minimized Nat) : Prop where
  alphabet_eq : E.alphabet = M.alphabet
  size_eq : E.size = M.classCount
  query_eq : ∀ c < M.classCount, ∀ a ∈ M.alphabet,
    M.query (.int c) (.text a) = .ok (E.target c a)
  isAccepting_iff : ∀ c < M.classCount, (E.isAccepting c = true ↔ c ∈ M.accepting)

/-- **An automaton with a row for each class can be made one with states.** -/
theorem Minimized.WellFormed.exists_isOfClasses {M : Minimized Nat} (h : M.WellFormed)
    (hpos : 0 < M.classCount) : ∃ E, M.toDfa = .ok E ∧ E.IsOfClasses M := by
  choose! t _ hquery hlt using fun (c : Nat) (hc : c < M.classCount) => h.exists_targets hc
  have htable : ((List.range M.classCount).map fun c => M.alphabet.symbols.map (t c)).map
      (fun row => Value.list (row.map targetValue)) =
        (List.range M.classCount).map (Dfa.tableValue M.alphabet t) := by
    rw [List.map_map]
    refine List.map_congr_left fun c _ => congrArg Value.list ?_
    rw [List.map_map]
    refine List.map_congr_left fun a _ => ?_
    change targetValue (t c a) = Dfa.givenTarget (t c a)
    cases t c a <;> rfl
  obtain ⟨E, hE, htab⟩ := Dfa.exists_hasTable (A := M.alphabet) hpos hlt h.accepting_lt
  refine ⟨E, bind_eq_ok.mpr ⟨_, allRows_eq_map hquery, bind_eq_ok.mpr ⟨_, h.acceptStates_eq, ?_⟩⟩,
    htab.alphabet_eq, htab.size_eq, fun c hc a ha => ?_, htab.isAccepting_iff⟩
  · rw [htable]
    exact hE
  · rw [htab.target_eq c hc a ha]
    exact hquery c hc a ha

namespace Dfa.IsOfClasses

variable {E : Dfa StateSet} {M : Minimized Nat} (h : E.IsOfClasses M)

include h

/-- **From a state is accepted what is accepted from the class.** -/
theorem acceptsFrom_eq {c : Nat} (hc : c < M.classCount) (w : List Symbol) :
    M.acceptsFrom (.int c) w = .ok (E.acceptsFrom c w) := by
  induction w generalizing c with
  | nil =>
    have hamong : M.isAmongAccepting (.int c) = E.isAccepting c := by
      rw [Bool.eq_iff_iff, h.isAccepting_iff c hc]
      simp [Minimized.isAmongAccepting, ClassName.toValue, Value.same_int]
    exact congrArg Except.ok hamong
  | cons a w ih =>
    rw [Minimized.acceptsFrom, Dfa.acceptsFrom, h.alphabet_eq]
    by_cases ha : a ∈ M.alphabet
    · rw [if_pos ha, if_pos ha, h.query_eq c hc a ha]
      cases ht : E.target c a with
      | none => rfl
      | some d => exact ih (h.size_eq ▸ target_lt_size ht)
    · rw [if_neg ha, if_neg ha]

end Dfa.IsOfClasses

end FiniteAutomata
