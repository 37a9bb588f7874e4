import FiniteAutomata.Proofs.Conversion.Canonical
import Mathlib.Data.Finset.Card

/-!
# Proofs/Conversion/Minimal — no automaton of the same words has fewer states

A word leads any automaton that accepts the same words to a state from which is accepted what the
word's class accepts (`Dfa.standsFor_of_run`). As no two classes accept the same, a state stands for
one class only, so there are no more classes than states that stand for them (`Dfa.card_le_size`).
Some state stands for each live class, and for each class at all if no move is missing
(`Nfa.convert_minimal`).
-/

namespace FiniteAutomata

/-! ## Counting live classes -/

open scoped Classical in
/-- **The live classes**, each once. -/
noncomputable def Minimized.liveClasses (M : Minimized Nat) : Finset Nat :=
  (Finset.range M.classCount).filter M.Live

theorem Minimized.mem_liveClasses {M : Minimized Nat} {c : Nat} :
    c ∈ M.liveClasses ↔ M.Live c := by
  simp only [liveClasses, Finset.mem_filter, Finset.mem_range]
  exact and_iff_right_of_imp And.left

namespace Dfa

variable {σ : Type} {E : Dfa σ}

/-! ## Automata without missing moves -/

/-- **No move is missing.** -/
def IsComplete (E : Dfa σ) : Prop := ∀ i < E.size, ∀ a ∈ E.alphabet, (E.target i a).isSome

instance (E : Dfa σ) : Decidable E.IsComplete :=
  inferInstanceAs (Decidable (∀ i < E.size, ∀ a ∈ E.alphabet.symbols, (E.target i a).isSome))

/-- Without missing moves every word leads somewhere. -/
theorem IsComplete.exists_run (h : E.IsComplete) {i : Nat} (hi : i < E.size) {w : List Symbol}
    (hw : ∀ a ∈ w, a ∈ E.alphabet) : ∃ k, E.run i w = some k := by
  induction w generalizing i with
  | nil => exact ⟨i, rfl⟩
  | cons a w ih =>
    obtain ⟨ha, hw⟩ := List.forall_mem_cons.mp hw
    obtain ⟨j, hj⟩ := Option.isSome_iff_exists.mp (h i hi a ha)
    obtain ⟨k, hk⟩ := ih (target_lt_size hj) hw
    exact ⟨k, by rw [run_cons, hj, Option.bind_some, hk]⟩

/-! ## States of another automaton that stand for classes -/

variable [Identity σ] {A : Alphabet} {L : List Symbol → Bool} {M : Minimized Nat}
  {c d k : Nat} {v : List Symbol}

/-- **The state stands for the class**: the same words are accepted from both. -/
structure StandsFor (E : Dfa σ) (M : Minimized Nat) (k c : Nat) : Prop where
  lt_size : k < E.size
  lt_classCount : c < M.classCount
  acceptsFrom_eq : ∀ w, M.acceptsFrom (.int c) w = .ok (E.acceptsFrom k w)

section Residuals

variable (h : M.IsResidualAutomaton A L)

include h

/-- **A state stands for one class only.** -/
theorem StandsFor.unique (hc : E.StandsFor M k c) (hd : E.StandsFor M k d) : c = d :=
  h.unique c d hc.lt_classCount hd.lt_classCount fun w =>
    (hc.acceptsFrom_eq w).trans (hd.acceptsFrom_eq w).symm

/-- **There are no more classes than states that stand for them.** -/
theorem card_le_size {s : Finset Nat} (hs : ∀ c ∈ s, ∃ k, E.StandsFor M k c) :
    s.card ≤ E.size := by
  choose! f hf using hs
  have hmaps : Set.MapsTo f s (Finset.range E.size) := fun c hc =>
    Finset.mem_coe.mpr (Finset.mem_range.mpr (hf c hc).lt_size)
  have hinj : Set.InjOn f s := fun c hc d hd hcd => (hf c hc).unique h (hcd ▸ hf d hd)
  calc
    s.card ≤ (Finset.range E.size).card := Finset.card_le_card_of_injOn f hmaps hinj
    _ = E.size := Finset.card_range _

end Residuals

section SameWords

variable (hA : ∀ a, a ∈ E.alphabet ↔ a ∈ A) (hL : ∀ w, E.accepts w = L w)
  (h : M.IsResidualAutomaton A L)

include hA hL

/-- The state to which a word leads stands for the class that the word completes. -/
theorem standsFor_of_run (hv : ∀ a ∈ v, a ∈ A) (hrun : E.run 0 v = some k)
    (hres : M.IsResidual L v c) : E.StandsFor M k c where
  lt_size := run_lt_size E.size_pos hrun
  lt_classCount := hres.lt
  acceptsFrom_eq w := by
    have hv' : ∀ a ∈ v, a ∈ E.alphabet := fun a ha => (hA a).mpr (hv a ha)
    rw [hres.acceptsFrom_eq w, ← hL, accepts, acceptsFrom_append hv' hrun]

include h

/-- A word that can be completed leads somewhere, so some state stands for each live class. -/
theorem exists_standsFor_of_live (hc : M.Live c) : ∃ k, E.StandsFor M k c := by
  obtain ⟨v, hv, hres⟩ := h.exists_word c hc.1
  obtain ⟨w, hw⟩ := hc.2
  have haccepts : E.accepts (v ++ w) = true :=
    (hL _).trans (Except.ok.inj ((hres.acceptsFrom_eq w).symm.trans hw))
  obtain ⟨k, hrun⟩ := exists_run_of_acceptsFrom_append haccepts
  exact ⟨k, standsFor_of_run hA hL hv hrun hres⟩

/-- Without missing moves every word leads somewhere, so some state stands for each class. -/
theorem IsComplete.exists_standsFor (hE : E.IsComplete) (hc : c < M.classCount) :
    ∃ k, E.StandsFor M k c := by
  obtain ⟨v, hv, hres⟩ := h.exists_word c hc
  obtain ⟨k, hrun⟩ := hE.exists_run E.size_pos fun a ha => (hA a).mpr (hv a ha)
  exact ⟨k, standsFor_of_run hA hL hv hrun hres⟩

/-- **No automaton of the same words has fewer states than there are live classes.** -/
theorem card_liveClasses_le_size : M.liveClasses.card ≤ E.size :=
  card_le_size h fun _ hc =>
    exists_standsFor_of_live hA hL h (Minimized.mem_liveClasses.mp hc)

/-- **None without missing moves has fewer states than there are classes.** -/
theorem IsComplete.classCount_le_size (hE : E.IsComplete) : M.classCount ≤ E.size :=
  calc
    M.classCount = (Finset.range M.classCount).card := (Finset.card_range _).symm
    _ ≤ E.size := card_le_size h fun _ hc =>
      hE.exists_standsFor hA hL h (Finset.mem_range.mp hc)

end SameWords

end Dfa

namespace Nfa

/-- **Minimized automata are minimal.**  No deterministic automaton over the same symbols that
accepts the same words has fewer states than the minimized automaton has live classes, and none
without missing moves has fewer than it has classes. -/
theorem convert_minimal (N : Nfa) : ∃ c, (Amended.ofNfa N).convert .null = .ok c ∧
    ∀ {σ : Type} [Identity σ] (E : Dfa σ), (∀ a, a ∈ E.alphabet ↔ a ∈ N.alphabet) →
      (∀ w, E.accepts w = N.accepts w) →
        c.minimized.liveClasses.card ≤ E.size ∧
          (E.IsComplete → c.minimized.classCount ≤ E.size) := by
  obtain ⟨D, h, hconvert⟩ := N.exists_convert
  refine ⟨_, hconvert, fun E hA hL => ⟨?_, fun hE => ?_⟩⟩
  · exact Dfa.card_liveClasses_le_size hA hL h.isResidualAutomaton
  · exact hE.classCount_le_size hA hL h.isResidualAutomaton

/-! ## An automaton of one state for every word over one symbol -/

/-- One state that leads to itself, without missing moves. -/
def loopDfa : Dfa StateSet where
  alphabet := oneSymbol
  states := [⟨.singleton 0, [("a", some 0)]⟩]
  accepting := .singleton 0
  nonempty := by decide
  states_fit q hq := by
    obtain rfl := List.mem_singleton.mp hq
    exact ⟨List.Perm.refl _, by simp⟩

/-- From its state what is accepted is accepted from the state of the other. -/
theorem loopDfa_acceptsFrom (w : List Symbol) :
    loopDfa.acceptsFrom 0 w = loop.acceptsFrom (.singleton 0) w := by
  have htarget : loopDfa.targetOrSink 0 "a" = 0 := by decide
  have hstep : loop.step (.singleton 0) "a" = .singleton 0 := by decide
  induction w with
  | nil => decide
  | cons a w ih =>
    by_cases ha : a ∈ oneSymbol
    · obtain rfl : a = "a" := List.mem_singleton.mp ha
      rw [Dfa.acceptsFrom_cons ha, htarget, acceptsFrom_cons, hstep, ih]
      rfl
    · exact (if_neg ha).trans (if_neg ha).symm

theorem convert_minimal_swap : (∀ a, a ∈ loopDfa.alphabet ↔ a ∈ swap.alphabet) ∧
    (∀ w, loopDfa.accepts w = swap.accepts w) ∧ loopDfa.IsComplete ∧
    ∃ c, (Amended.ofNfa swap).convert .null = .ok c ∧
      c.minimized.liveClasses.card ≤ 1 ∧ c.minimized.classCount ≤ 1 := by
  have hA : ∀ a, a ∈ loopDfa.alphabet ↔ a ∈ swap.alphabet := fun _ => Iff.rfl
  have hL : ∀ w, loopDfa.accepts w = swap.accepts w := fun w =>
    (loopDfa_acceptsFrom w).trans (swap_acceptsFrom w).1.symm
  have hE : loopDfa.IsComplete := by decide
  obtain ⟨c, hc, hmin⟩ := convert_minimal swap
  exact ⟨hA, hL, hE, c, hc, (hmin loopDfa hA hL).1, (hmin loopDfa hA hL).2 hE⟩

end Nfa

end FiniteAutomata
