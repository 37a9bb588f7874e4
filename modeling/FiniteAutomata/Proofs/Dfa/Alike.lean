import FiniteAutomata.Dfa.Run
import FiniteAutomata.Minimized.Refinement
import Mathlib.Logic.Basic

/-!
# Proofs/Dfa/Alike — states that no word tells apart

Two states are alike if the same words are accepted from them (`Dfa.Alike`). The number after the
last state serves as the sink: nothing is accepted from it, and a missing move may be taken to lead
to it (`Dfa.acceptsFrom_cons`), so every state has a target on every symbol. Only words of symbols
of the alphabet matter (`Dfa.alike_iff`), and one that follows a run is accepted from where the run
ends (`Dfa.acceptsFrom_append`).
-/

namespace FiniteAutomata

namespace Dfa

variable {σ : Type} {D : Dfa σ} {i j : Nat} {a : Symbol}

/-! ## Targets and the sink -/

theorem size_pos (D : Dfa σ) : 0 < D.size := List.length_pos_iff.mpr D.nonempty

theorem target_of_size_le (h : D.size ≤ i) : D.target i a = none := by
  simp [target, List.getElem?_eq_none h]

/-- Only states have targets. -/
theorem lt_size_of_target (h : D.target i a = some j) : i < D.size :=
  Nat.lt_of_not_le fun hle => by simp [target_of_size_le hle] at h

/-- **Targets are states.** -/
theorem target_lt_size (h : D.target i a = some j) : j < D.size := by
  have hi := lt_size_of_target h
  rw [target, List.getElem?_eq_getElem hi] at h
  simp only [Option.bind_eq_bind, Option.bind_some] at h
  obtain ⟨o, ho, rfl⟩ := Option.bind_eq_some_iff.mp h
  obtain ⟨l, r, hsplit, -⟩ := List.lookup_eq_some_iff.mp ho
  have hmem : (a, some j) ∈ D.states[i].targets := by
    rw [hsplit]
    simp
  exact (D.states_fit _ (List.getElem_mem hi)).targets_lt _ hmem j rfl

theorem targetOrSink_of_some (h : D.target i a = some j) : D.targetOrSink i a = j := by
  simp [targetOrSink, h]

theorem targetOrSink_of_none (h : D.target i a = none) : D.targetOrSink i a = D.sink := by
  simp [targetOrSink, h]

theorem targetOrSink_le_size (i : Nat) (a : Symbol) : D.targetOrSink i a ≤ D.size := by
  cases h : D.target i a with
  | none => exact Nat.le_of_eq (targetOrSink_of_none h)
  | some j => exact targetOrSink_of_some h ▸ Nat.le_of_lt (target_lt_size h)

/-- The last move of a word that leads somewhere. -/
theorem run_concat_eq_some_iff {w : List Symbol} {k : Nat} :
    D.run i (w ++ [a]) = some k ↔ ∃ j, D.run i w = some j ∧ D.target j a = some k := by
  rw [run_append, Option.bind_eq_some_iff]
  simp

/-- Runs stay among the states. -/
theorem run_lt_size {w : List Symbol} (hi : i < D.size) (h : D.run i w = some j) : j < D.size := by
  induction w generalizing i with
  | nil => exact Option.some.inj h ▸ hi
  | cons a w ih =>
    obtain ⟨k, hk, hrun⟩ := Option.bind_eq_some_iff.mp h
    exact ih (target_lt_size hk) hrun

/-! ## Acceptance -/

variable [Identity σ] {v w : List Symbol}

theorem isAccepting_of_size_le (h : D.size ≤ i) : D.isAccepting i = false := by
  simp [isAccepting, List.getElem?_eq_none h]

/-- A symbol outside the alphabet rejects, wherever it stands. -/
theorem acceptsFrom_of_notMem (h : ¬ ∀ a ∈ w, a ∈ D.alphabet) (i : Nat) :
    D.acceptsFrom i w = false :=
  Bool.eq_false_iff.mpr fun hw => h (acceptsFrom_iff D |>.mp hw).1

theorem acceptsFrom_of_size_le (h : D.size ≤ i) (w : List Symbol) : D.acceptsFrom i w = false := by
  cases w with
  | nil => exact isAccepting_of_size_le h
  | cons a w => simp [acceptsFrom, target_of_size_le h]

/-- **A missing move may be taken to lead to the sink.** -/
theorem acceptsFrom_cons (ha : a ∈ D.alphabet) (i : Nat) (w : List Symbol) :
    D.acceptsFrom i (a :: w) = D.acceptsFrom (D.targetOrSink i a) w := by
  rw [acceptsFrom, if_pos ha]
  cases h : D.target i a with
  | none =>
    rw [targetOrSink_of_none h]
    exact (acceptsFrom_of_size_le (Nat.le_refl _) w).symm
  | some j => rw [targetOrSink_of_some h]

/-- After a run, what is accepted is what is accepted from its end. -/
theorem acceptsFrom_append (hv : ∀ a ∈ v, a ∈ D.alphabet) (hrun : D.run i v = some j)
    (w : List Symbol) : D.acceptsFrom i (v ++ w) = D.acceptsFrom j w := by
  rw [Bool.eq_iff_iff, acceptsFrom_iff, acceptsFrom_iff, List.forall_mem_append, run_append, hrun,
    Option.bind_some, and_iff_right hv]

/-- The beginning of an accepted word leads somewhere. -/
theorem exists_run_of_acceptsFrom_append (h : D.acceptsFrom i (v ++ w) = true) :
    ∃ j, D.run i v = some j := by
  obtain ⟨-, k, hk, -⟩ := (acceptsFrom_iff D).mp h
  rw [run_append] at hk
  obtain ⟨j, hj, -⟩ := Option.bind_eq_some_iff.mp hk
  exact ⟨j, hj⟩

/-! ## States alike -/

/-- **No word tells the two states apart.** -/
def Alike (D : Dfa σ) (i j : Nat) : Prop := ∀ w, D.acceptsFrom i w = D.acceptsFrom j w

theorem Alike.refl (i : Nat) : D.Alike i i := fun _ => rfl

theorem Alike.symm (h : D.Alike i j) : D.Alike j i := fun w => (h w).symm

theorem Alike.trans {k : Nat} (h : D.Alike i j) (h' : D.Alike j k) : D.Alike i k := fun w =>
  (h w).trans (h' w)

/-- Words with a symbol outside the alphabet tell no states apart. -/
theorem alike_iff : D.Alike i j ↔
    ∀ w, (∀ a ∈ w, a ∈ D.alphabet) → D.acceptsFrom i w = D.acceptsFrom j w := by
  refine ⟨fun h w _ => h w, fun h w => ?_⟩
  by_cases hw : ∀ a ∈ w, a ∈ D.alphabet
  · exact h w hw
  · rw [acceptsFrom_of_notMem hw, acceptsFrom_of_notMem hw]

theorem Alike.isAccepting_eq (h : D.Alike i j) : D.isAccepting i = D.isAccepting j := h []

/-- Moves on one symbol lead from states alike to states alike. -/
theorem Alike.targetOrSink (h : D.Alike i j) (ha : a ∈ D.alphabet) :
    D.Alike (D.targetOrSink i a) (D.targetOrSink j a) := fun w => by
  rw [← acceptsFrom_cons ha, ← acceptsFrom_cons ha]
  exact h (a :: w)

/-! ## Dead states -/

/-- **No word is accepted from the state.** -/
def Dead (D : Dfa σ) (i : Nat) : Prop := ∀ w, D.acceptsFrom i w = false

/-- The states that no word tells apart from the sink are the dead ones. -/
theorem alike_sink_iff : D.Alike i D.sink ↔ D.Dead i := by
  refine forall_congr' fun w => ?_
  rw [acceptsFrom_of_size_le (show D.size ≤ D.sink from Nat.le_refl _)]

end Dfa

end FiniteAutomata
