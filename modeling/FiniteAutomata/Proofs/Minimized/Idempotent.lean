import FiniteAutomata.Proofs.Minimized.Residual
import FiniteAutomata.Proofs.Minimized.States

/-!
# Proofs/Minimized/Idempotent — minimizing a minimized automaton changes nothing

If no two states of an automaton are alike, each is in the class of its own number
(`Dfa.classOf_eq_self`). The states that stand for the classes of a minimized automaton are such
(`Dfa.eq_of_alike_classes`), so the classes stay as they are. A move of a class that is missing
stays missing, for it says that there is no dead state (`Dfa.not_dead_of_missing`); a class of dead
states takes in the sink. Hence the second automaton lists the same moves
(`Dfa.minimize_toDfa_minimize`).
-/

namespace FiniteAutomata

namespace Dfa

variable {σ : Type} [Identity σ] {D : Dfa σ}

/-! ## Automata no two states of which are alike -/

section Distinct

variable (hdistinct : ∀ i < D.size, ∀ j < D.size, D.Alike i j → i = j)

include hdistinct

/-- **A state that is alike to no other is in the class of its own number.**  By induction on the
number: a lower class is that of an earlier state, and a higher one comes after some class that has
no earlier member. -/
theorem classOf_eq_self {i : Nat} (hi : i < D.size) : D.classOf i = i := by
  have hinj : ∀ {j k : Nat}, j < D.size → k < D.size → D.classOf j = D.classOf k → j = k := by
    intro j k hj hk hjk
    exact hdistinct j hj k hk ((classOf_eq_iff (Nat.le_of_lt hj) (Nat.le_of_lt hk)).mp hjk)
  induction i using Nat.strong_induction_on with
  | _ i ih =>
    cases hc : D.classOf i with
    | zero => exact hinj D.size_pos hi (D.classOf_zero.trans hc.symm)
    | succ c =>
      obtain ⟨k, hki, hk⟩ := exists_classOf_before hi hc
      obtain rfl : k = c := (ih k hki (Nat.lt_trans hki hi)).symm.trans hk
      rcases Nat.lt_or_eq_of_le (Nat.succ_le_of_lt hki) with hlt | heq
      · have hlt' := Nat.lt_trans hlt hi
        exact hinj hlt' hi ((ih _ hlt hlt').trans hc.symm)
      · exact heq

/-- Then there are as many classes as states. -/
theorem classCount_eq_size : D.minimize.classCount = D.size :=
  classCount_eq_size_iff.mpr hdistinct

/-- And each state makes up the class of its number. -/
theorem classAssignment_eq_range : D.minimize.classAssignment = List.range D.size := by
  rw [classAssignment_minimize]
  refine (List.map_congr_left fun i hi => ?_).trans (List.map_id _)
  exact classOf_eq_self hdistinct (List.mem_range.mp hi)

end Distinct

/-! ## The automaton of the classes -/

section Classes

variable {E : Dfa StateSet} (h : E.IsOfClasses D.minimize)

include h

/-- From the state of a class is accepted what is accepted from the members. -/
theorem acceptsFrom_state {i : Nat} (hi : i < D.size) (w : List Symbol) :
    E.acceptsFrom (D.classOf i) w = D.acceptsFrom i w := by
  have hlt := classOf_lt_classCount hi
  have heq := (h.acceptsFrom_eq hlt w).symm.trans (acceptsFrom_classOf (Nat.le_of_lt hi) hlt w)
  exact Except.ok.inj heq

theorem exists_member {c : Nat} (hc : c < E.size) : ∃ i < D.size, D.classOf i = c :=
  lt_classCount_iff.mp (h.size_eq ▸ hc)

/-- **No two classes are alike.** -/
theorem eq_of_alike_classes : ∀ c < E.size, ∀ d < E.size, E.Alike c d → c = d := by
  intro c hc d hd halike
  rw [h.size_eq] at hc hd
  refine eq_of_sameWords hc hd fun w => ?_
  rw [h.acceptsFrom_eq hc, h.acceptsFrom_eq hd, halike w]

/-- **A move is missing only if there is no dead state**, among the classes either. -/
theorem not_dead_of_missing {c : Nat} {a : Symbol} (hc : c < E.size) (ha : a ∈ D.alphabet)
    (hnone : E.target c a = none) : ∀ d < E.size, ¬ E.Dead d := by
  obtain ⟨i, hi, rfl⟩ := exists_member h hc
  have hlt := classOf_lt_classCount hi
  have hquery := (query_classOf (Nat.le_of_lt hi) hlt ha).symm.trans (h.query_eq _ hlt a ha)
  rw [hnone] at hquery
  have hkept : D.keptClass? (D.targetOrSink i a) = none := Except.ok.inj hquery
  intro d hd hdead
  obtain ⟨k, hk, rfl⟩ := exists_member h hd
  have hdead' : D.Dead k := fun w => (acceptsFrom_state h hk w).symm.trans (hdead w)
  cases ht : D.target i a with
  | some j =>
    rw [targetOrSink_of_some ht, keptClass?_of_lt (target_lt_size ht)] at hkept
    nomatch hkept
  | none =>
    rw [targetOrSink_of_none ht, keptClass?_sink_of_dead hk hdead'] at hkept
    nomatch hkept

/-- **A class lists the targets that its state has.** -/
theorem query_minimize_state {c : Nat} {a : Symbol} (hc : c < E.size) (ha : a ∈ D.alphabet) :
    E.minimize.query (.int c) (.text a) = .ok (E.target c a) := by
  have hself : ∀ {d : Nat}, d < E.size → E.classOf d = d := classOf_eq_self (eq_of_alike_classes h)
  have halphabet : E.alphabet = D.alphabet := h.alphabet_eq
  have hquery := query_classOf (Nat.le_of_lt hc) (classOf_lt_classCount hc) (halphabet ▸ ha)
  rw [hself hc] at hquery
  rw [hquery]
  cases ht : E.target c a with
  | some d =>
    have hd := target_lt_size ht
    rw [targetOrSink_of_some ht, keptClass?_of_lt hd, hself hd]
  | none =>
    rw [targetOrSink_of_none ht, keptClass?_sink_of_not_dead (not_dead_of_missing h hc ha ht)]

/-- **The same classes accept.** -/
theorem mem_accepting_minimize_state {c : Nat} :
    c ∈ E.minimize.accepting ↔ c ∈ D.minimize.accepting := by
  have hsize := classCount_eq_size (eq_of_alike_classes h)
  by_cases hc : c < E.size
  · have hmem := classOf_mem_accepting (Nat.le_of_lt hc) (classOf_lt_classCount hc)
    rw [classOf_eq_self (eq_of_alike_classes h) hc] at hmem
    exact hmem.trans (h.isAccepting_iff c (h.size_eq ▸ hc))
  · refine iff_of_false (fun hmem => hc ?_) fun hmem => hc ?_
    · exact hsize ▸ E.wellFormed_minimize.accepting_lt c hmem
    · exact h.size_eq ▸ D.wellFormed_minimize.accepting_lt c hmem

end Classes

/-- **Minimizing a minimized automaton changes nothing.** Its classes can be made states, and when
that automaton is minimized, each state makes up the class of its own number, all moves of the
classes are as they were, those that are missing included, and the same classes accept. -/
theorem minimize_toDfa_minimize (D : Dfa σ) : ∃ E, D.minimize.toDfa = .ok E ∧
    E.minimize.alphabet = D.minimize.alphabet ∧
    E.minimize.classCount = D.minimize.classCount ∧
    E.minimize.classAssignment = List.range D.minimize.classCount ∧
    E.minimize.rows = D.minimize.rows ∧ E.minimize.accepting = D.minimize.accepting := by
  have hpos := lt_classCount_iff.mpr ⟨0, D.size_pos, D.classOf_zero⟩
  obtain ⟨E, hE, h⟩ := D.wellFormed_minimize.exists_isOfClasses hpos
  have hdistinct := eq_of_alike_classes h
  have hcount : E.minimize.classCount = D.minimize.classCount :=
    (classCount_eq_size hdistinct).trans h.size_eq
  have halphabet : E.alphabet = D.alphabet := h.alphabet_eq
  refine ⟨E, hE, halphabet, hcount, ?_, ?_, ?_⟩
  · rw [classAssignment_eq_range hdistinct, h.size_eq]
  · refine E.wellFormed_minimize.rows_eq D.wellFormed_minimize halphabet hcount ?_
    intro c hc a ha
    have ha' : a ∈ D.alphabet := halphabet ▸ ha
    rw [query_minimize_state h (classCount_eq_size hdistinct ▸ hc) ha']
    exact (h.query_eq c (hcount ▸ hc) a ha').symm
  · exact E.wellFormed_minimize.ascending.eq_of_mem_iff D.wellFormed_minimize.ascending
      fun c => mem_accepting_minimize_state h

end Dfa

end FiniteAutomata
