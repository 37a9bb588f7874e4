import FiniteAutomata.Proofs.Conversion.Language
import FiniteAutomata.Proofs.Minimized.Residual

/-!
# Proofs/Conversion/Canonical — the minimized automaton is a canonical form

The subset construction numbers its states by the least words that lead to them, and minimization
its classes by their first members: so classes come in the order of the least words they complete
(`Nfa.IsSubsetAutomaton.isResidualAutomaton`), and two automata over one alphabet accept the same
words exactly when their minimized forms have the same live part. A dead state that the subset
construction has made may still add a class to one of them.
-/

namespace FiniteAutomata

namespace Nfa

namespace IsSubsetAutomaton

variable {N : Nfa} {D : Dfa StateSet} (h : N.IsSubsetAutomaton D)

include h

/-- The class of a state completes the words that lead to it. -/
theorem isResidual_classOf {v : List Symbol} {k : Nat} (hv : ∀ a ∈ v, a ∈ N.alphabet)
    (hrun : D.run 0 v = some k) : D.minimize.IsResidual N.accepts v (D.classOf k) := by
  have hk := Dfa.run_lt_size D.size_pos hrun
  refine ⟨Dfa.classOf_lt_classCount hk, fun w => ?_⟩
  rw [Dfa.acceptsFrom_classOf (Nat.le_of_lt hk) (Dfa.classOf_lt_classCount hk), ← h.accepts_eq]
  exact congrArg _ (Dfa.acceptsFrom_append (h.alphabet_eq ▸ hv) hrun w).symm

/-- What can be completed to an accepted word leads somewhere. -/
theorem exists_run_of_accepts {v w : List Symbol} (hw : N.accepts (v ++ w) = true) :
    ∃ k, D.run 0 v = some k :=
  Dfa.exists_run_of_acceptsFrom_append ((h.accepts_eq (v ++ w)).trans hw)

/-- **Before a word that a live class completes there is one that any earlier class does**: the word
leads to a state of the class, after the first member of the earlier class. -/
theorem exists_residual_before {c d : Nat} {v : List Symbol} (hcd : c < d)
    (hlive : D.minimize.Live d) (hv : ∀ a ∈ v, a ∈ N.alphabet)
    (hres : D.minimize.IsResidual N.accepts v d) :
    ∃ u, (∀ a ∈ u, a ∈ N.alphabet) ∧ N.alphabet.WordBefore u v ∧
      D.minimize.IsResidual N.accepts u c := by
  obtain ⟨hd, w, hw⟩ := hlive
  have haccepts := Except.ok.inj ((hres.acceptsFrom_eq w).symm.trans hw)
  obtain ⟨k, hrun⟩ := h.exists_run_of_accepts haccepts
  have hk := Dfa.run_lt_size D.size_pos hrun
  obtain rfl : D.classOf k = d := Dfa.eq_of_sameWords (Dfa.classOf_lt_classCount hk) hd
    ((h.isResidual_classOf hv hrun).sameWords hres)
  obtain ⟨l, hl⟩ := Dfa.exists_keptLeader (Nat.lt_trans hcd hd)
  obtain ⟨hlt, rfl, hfirst⟩ := Dfa.classOf_leader hl
  have hle : l ≤ k := hfirst k (Nat.le_of_lt hk) (Nat.le_of_lt hcd)
  have hlk : l < k := Nat.lt_of_le_of_ne hle (by rintro rfl; exact Nat.lt_irrefl _ hcd)
  obtain ⟨u, hu, hrun', huv⟩ := h.exists_run_before hv hrun hlk
  exact ⟨u, hu, huv, h.isResidual_classOf hu hrun'⟩

/-- **The classes of the subset construction are those of the words that can be completed**, in the
order of the words. -/
theorem isResidualAutomaton : D.minimize.IsResidualAutomaton N.alphabet N.accepts where
  wellFormed := D.wellFormed_minimize
  alphabet_eq := h.alphabet_eq
  start := D.classOf_zero ▸ h.isResidual_classOf (by simp) rfl
  exists_word c hc := by
    obtain ⟨i, hi, rfl⟩ := Dfa.lt_classCount_iff.mp hc
    obtain ⟨v, hv, hrun⟩ := h.exists_run hi
    exact ⟨v, hv, h.isResidual_classOf hv hrun⟩
  exists_class v w hv hw := by
    obtain ⟨k, hrun⟩ := h.exists_run_of_accepts hw
    exact ⟨_, h.isResidual_classOf hv hrun⟩
  unique _ _ := Dfa.eq_of_sameWords
  ordered _ _ _ := h.exists_residual_before

end IsSubsetAutomaton

/-! ## Two automata over one alphabet -/

section Two

variable {N₁ N₂ : Nfa} {D₁ D₂ : Dfa StateSet} (h₁ : N₁.IsSubsetAutomaton D₁)
  (h₂ : N₂.IsSubsetAutomaton D₂) (halphabet : N₁.alphabet = N₂.alphabet)

include h₁ h₂ halphabet

/-- If the same words are accepted, the live parts are the same. -/
theorem exists_liveIso (hwords : ∀ w, N₁.accepts w = N₂.accepts w) :
    ∃ f : D₁.minimize.LiveClass ≃o D₂.minimize.LiveClass, Minimized.IsLiveIso f := by
  have hres := h₂.isResidualAutomaton
  rw [← halphabet, ← funext hwords] at hres
  exact h₁.isResidualAutomaton.exists_liveIso hres

theorem alphabet_minimize_eq : D₁.minimize.alphabet = D₂.minimize.alphabet := by
  rw [h₁.isResidualAutomaton.alphabet_eq, h₂.isResidualAutomaton.alphabet_eq, halphabet]

/-- If the live parts are the same, the same words are accepted. -/
theorem accepts_eq_of_liveIso {f : D₁.minimize.LiveClass ≃o D₂.minimize.LiveClass}
    (hf : Minimized.IsLiveIso f) (w : List Symbol) : N₁.accepts w = N₂.accepts w := by
  have hiff := hf.accepts_iff (w := w) D₁.wellFormed_minimize D₂.wellFormed_minimize
    (alphabet_minimize_eq h₁ h₂ halphabet) h₁.isResidualAutomaton.start.lt
    h₂.isResidualAutomaton.start.lt
  rw [D₁.accepts_minimize, D₂.accepts_minimize, h₁.accepts_eq, h₂.accepts_eq, Except.ok.injEq,
    Except.ok.injEq] at hiff
  exact Bool.eq_iff_iff.mpr hiff

end Two

/-- **Minimized automata are canonical.**  Two automata over one alphabet accept the same words
exactly when the live classes of their minimized forms correspond, in the order of their numbers,
with their moves, acceptance and the start class; and if there are no other classes, then the
minimized forms of automata that accept the same words are equal. -/
theorem convert_canonical {N₁ N₂ : Nfa} (halphabet : N₁.alphabet = N₂.alphabet) :
    ∃ c₁ c₂, (Amended.ofNfa N₁).convert .null = .ok c₁ ∧
      (Amended.ofNfa N₂).convert .null = .ok c₂ ∧
      ((∀ w, N₁.accepts w = N₂.accepts w) ↔
        ∃ f : c₁.minimized.LiveClass ≃o c₂.minimized.LiveClass, Minimized.IsLiveIso f) ∧
      ((∀ w, N₁.accepts w = N₂.accepts w) →
        c₁.minimized.AllLive → c₂.minimized.AllLive →
          c₁.minimized.classCount = c₂.minimized.classCount ∧
          c₁.minimized.rows = c₂.minimized.rows ∧
          ∃ F, c₁.minimized.acceptStates = .ok F ∧ c₂.minimized.acceptStates = .ok F) := by
  obtain ⟨D₁, h₁, hconvert₁⟩ := N₁.exists_convert
  obtain ⟨D₂, h₂, hconvert₂⟩ := N₂.exists_convert
  refine ⟨_, _, hconvert₁, hconvert₂, ⟨exists_liveIso h₁ h₂ halphabet, ?_⟩, ?_⟩
  · rintro ⟨f, hf⟩
    exact accepts_eq_of_liveIso h₁ h₂ halphabet hf
  · intro hwords hlive₁ hlive₂
    obtain ⟨f, hf⟩ := exists_liveIso h₁ h₂ halphabet hwords
    have hM₁ := D₁.wellFormed_minimize
    have hM₂ := D₂.wellFormed_minimize
    have hrows := hf.rows_eq_of_live hlive₁ hlive₂ hM₁ hM₂ (alphabet_minimize_eq h₁ h₂ halphabet)
    have haccepting := hf.accepting_eq_of_live hlive₁ hlive₂ hM₁ hM₂
    refine ⟨Minimized.classCount_eq_of_live hlive₁ hlive₂ f, hrows, _, hM₁.acceptStates_eq, ?_⟩
    rw [haccepting]
    exact hM₂.acceptStates_eq

/-! ## Two automata that accept every word over one symbol -/

/-- The alphabet of one symbol. -/
def oneSymbol : Alphabet := ⟨["a"], by decide, by decide, by decide⟩

/-- One state that leads to itself. -/
def loop : Nfa where
  stateCount := 1
  alphabet := oneSymbol
  transitions := [⟨0, 0, ["a"], by decide⟩]
  start := 0
  accepting := .singleton 0
  start_inRange := by decide
  accepting_inRange := by decide
  transitions_fit t ht := by
    obtain rfl := List.mem_singleton.mp ht
    exact ⟨by decide, by decide, by decide⟩

/-- Two states that lead to each other. -/
def swap : Nfa where
  stateCount := 2
  alphabet := oneSymbol
  transitions := [⟨0, 1, ["a"], by decide⟩, ⟨1, 0, ["a"], by decide⟩]
  start := 0
  accepting := .ofList [0, 1]
  start_inRange := by decide
  accepting_inRange := by decide
  transitions_fit t ht := by
    rcases List.mem_pair.mp ht with rfl | rfl <;> exact ⟨by decide, by decide, by decide⟩

/-- Wherever the one is, the other accepts the same. -/
theorem swap_acceptsFrom (w : List Symbol) :
    swap.acceptsFrom (.singleton 0) w = loop.acceptsFrom (.singleton 0) w ∧
      swap.acceptsFrom (.singleton 1) w = loop.acceptsFrom (.singleton 0) w := by
  have hloop : loop.step (.singleton 0) "a" = .singleton 0 := by decide
  have hzero : swap.step (.singleton 0) "a" = .singleton 1 := by decide
  have hone : swap.step (.singleton 1) "a" = .singleton 0 := by decide
  induction w with
  | nil => decide
  | cons a w ih =>
    rw [acceptsFrom_cons, acceptsFrom_cons, acceptsFrom_cons]
    by_cases ha : a ∈ oneSymbol
    · obtain rfl : a = "a" := List.mem_singleton.mp ha
      rw [hloop, hzero, hone, ih.1, ih.2]
      exact ⟨rfl, rfl⟩
    · exact ⟨(if_neg ha).trans (if_neg ha).symm, (if_neg ha).trans (if_neg ha).symm⟩

theorem convert_canonical_swap_loop : swap.alphabet = loop.alphabet ∧
    ∃ c₁ c₂, (Amended.ofNfa swap).convert .null = .ok c₁ ∧
      (Amended.ofNfa loop).convert .null = .ok c₂ ∧
      ∃ f : c₁.minimized.LiveClass ≃o c₂.minimized.LiveClass, Minimized.IsLiveIso f := by
  obtain ⟨c₁, c₂, h₁, h₂, hiff, -⟩ :=
    convert_canonical (show swap.alphabet = loop.alphabet from rfl)
  exact ⟨rfl, c₁, c₂, h₁, h₂, hiff.mp fun w => (swap_acceptsFrom w).1⟩

end Nfa

end FiniteAutomata
