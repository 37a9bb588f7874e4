import FiniteAutomata.Proofs.Dfa.Alike
import FiniteAutomata.Proofs.Subset.Automaton

/-!
# Proofs/Subset/Order — states are numbered by the first words that lead to them

Every state of the subset construction is led to by some word (`IsSubsetAutomaton.exists_run`), and
every word that leads to a state comes after some word that leads to any earlier one
(`IsSubsetAutomaton.exists_run_before`): so the numbers of the states are in the order of the first
words that lead to them, by length and then by the alphabet (`Nfa.toDfa_numbering`).
-/

namespace FiniteAutomata

/-- **The word over the alphabet leads to the state** from the start state. -/
def Dfa.IsWordTo {σ : Type} (D : Dfa σ) (i : Nat) (w : List Symbol) : Prop :=
  (∀ a ∈ w, a ∈ D.alphabet) ∧ D.run 0 w = some i

namespace Nfa

variable {N : Nfa} {D : Dfa StateSet}

namespace IsSubsetAutomaton

variable (h : N.IsSubsetAutomaton D)

include h

/-- **Some word leads to every state.** -/
theorem exists_run {i : Nat} (hi : i < D.size) :
    ∃ w, (∀ a ∈ w, a ∈ N.alphabet) ∧ D.run 0 w = some i := by
  rw [← D.length_identities] at hi
  obtain ⟨w, hw, hreach⟩ := h.explored.exists_word (List.getElem?_eq_getElem hi)
  exact ⟨w, hw, (h.run_eq_some_iff hw).mpr (hreach ▸ List.getElem?_eq_getElem hi)⟩

/-- The moves of the exploration are those of the automaton. -/
theorem leadsTo_iff {i k : Nat} {a : Symbol} (ha : a ∈ N.alphabet) :
    N.LeadsTo D.identities (i, a) k ↔ D.target i a = some k := by
  constructor
  · rintro ⟨S, hS, hk⟩
    have htarget := h.isTarget i S a hS ha
    cases ho : D.target i a with
    | none =>
      rw [ho] at htarget
      exact absurd htarget (h.explored.ne_empty _ (List.mem_iff_getElem?.mpr ⟨k, hk⟩))
    | some j =>
      rw [ho] at htarget
      rw [h.eq_of_getElem? htarget hk]
  · intro hk
    have hi : i < D.identities.length := D.length_identities ▸ Dfa.lt_size_of_target hk
    have htarget := h.isTarget i _ a (List.getElem?_eq_getElem hi) ha
    rw [hk] at htarget
    exact ⟨_, List.getElem?_eq_getElem hi, htarget⟩

/-- A move to a state comes after some move to each earlier state but the first. -/
theorem exists_target_before {i j k : Nat} {a : Symbol} (ha : a ∈ N.alphabet)
    (hk : D.target i a = some k) (hj : 0 < j) (hjk : j < k) :
    ∃ i' b, b ∈ N.alphabet ∧ D.target i' b = some j ∧
      (i' < i ∨ i' = i ∧ N.alphabet.Before b a) := by
  have hlead := (h.leadsTo_iff ha).mpr hk
  obtain ⟨⟨i', b⟩, ⟨-, hb⟩, hbefore, hlead'⟩ :=
    h.explored.ordered j k (i, a) hj hjk ⟨Dfa.lt_size_of_target hk, ha⟩ hlead
  exact ⟨i', b, hb, (h.leadsTo_iff hb).mp hlead', Prod.lex_def.mp hbefore⟩

/-- **A word that leads to a state comes after some word to each earlier state.**  The induction is
on the word: the move that reads its last symbol comes after a move to the earlier state, and the
state this starts from is the same or, by induction, led to by an earlier word. -/
theorem exists_run_before {w : List Symbol} (hw : ∀ a ∈ w, a ∈ N.alphabet) {j k : Nat}
    (hk : D.run 0 w = some k) (hjk : j < k) :
    ∃ v, (∀ a ∈ v, a ∈ N.alphabet) ∧ D.run 0 v = some j ∧ N.alphabet.WordBefore v w := by
  induction w using List.reverseRecOn generalizing j k with
  | nil =>
    obtain rfl : 0 = k := Option.some.inj hk
    exact absurd hjk (Nat.not_lt_zero j)
  | append_singleton w a ih =>
    obtain ⟨hw, ha⟩ := List.forall_mem_append.mp hw
    have ha := ha a (List.mem_singleton_self a)
    rcases Nat.eq_zero_or_pos j with rfl | hj
    · exact ⟨[], by simp, rfl, Alphabet.nil_wordBefore_concat w a⟩
    obtain ⟨i, hi, htarget⟩ := Dfa.run_concat_eq_some_iff.mp hk
    obtain ⟨i', b, hb, htarget', hlt | ⟨rfl, hba⟩⟩ := h.exists_target_before ha htarget hj hjk
    · obtain ⟨v, hv, hrun, hvw⟩ := ih hw hi hlt
      refine ⟨v ++ [b], ?_, Dfa.run_concat_eq_some_iff.mpr ⟨i', hrun, htarget'⟩, hvw.concat b a⟩
      exact List.forall_mem_append.mpr ⟨hv, by simpa using hb⟩
    · refine ⟨w ++ [b], ?_, Dfa.run_concat_eq_some_iff.mpr ⟨i', hi, htarget'⟩, hba.concat w⟩
      exact List.forall_mem_append.mpr ⟨hw, by simpa using hb⟩

/-! ## The first words -/

/-- **Exactly one word is the first that leads to a state.** -/
theorem existsUnique_isFirst {i : Nat} (hi : i < D.size) :
    ∃! w, N.alphabet.IsFirst (D.IsWordTo i) w := by
  obtain ⟨w, hw, hrun⟩ := h.exists_run hi
  refine Alphabet.existsUnique_isFirst (fun v hv => ?_) ⟨h.alphabet_eq ▸ hw, hrun⟩
  exact h.alphabet_eq ▸ hv.1

/-- The first word to an earlier state comes earlier. -/
theorem wordBefore_of_lt {i j : Nat} {v w : List Symbol}
    (hv : N.alphabet.IsFirst (D.IsWordTo i) v) (hw : N.alphabet.IsFirst (D.IsWordTo j) w)
    (hij : i < j) : N.alphabet.WordBefore v w := by
  obtain ⟨hmem, hrun⟩ := hw.holds
  obtain ⟨u, hu, hrun', huw⟩ := h.exists_run_before (h.alphabet_eq ▸ hmem) hrun hij
  rcases hv.eq_or_before u ⟨h.alphabet_eq ▸ hu, hrun'⟩ with rfl | hvu
  · exact huw
  · exact hvu.trans huw

/-- **States are numbered in the order of the first words that lead to them.** -/
theorem lt_iff_wordBefore {i j : Nat} {v w : List Symbol}
    (hv : N.alphabet.IsFirst (D.IsWordTo i) v) (hw : N.alphabet.IsFirst (D.IsWordTo j) w) :
    i < j ↔ N.alphabet.WordBefore v w := by
  refine ⟨h.wordBefore_of_lt hv hw, fun hvw => ?_⟩
  rcases Nat.lt_trichotomy i j with hlt | rfl | hlt
  · exact hlt
  · exact absurd (hv.unique hw ▸ hvw) (Alphabet.WordBefore.irrefl w)
  · exact absurd (h.wordBefore_of_lt hw hv hlt) hvw.asymm

/-! ## Acceptance -/

theorem isAccepting_iff {i : Nat} {S : StateSet} (hi : D.identities[i]? = some S) :
    D.isAccepting i = S.meets N.accepting := by
  rw [Dfa.identities, List.getElem?_map, Option.map_eq_some_iff] at hi
  obtain ⟨q, hq, rfl⟩ := hi
  rw [Dfa.isAccepting, hq, ← h.accepting_eq]
  rfl

/-- **The automaton of the sets accepts what the automaton accepts.** -/
theorem accepts_eq (w : List Symbol) : D.accepts w = N.accepts w := by
  rw [Bool.eq_iff_iff, accepts_iff_reach, Dfa.accepts, Dfa.acceptsFrom_iff, h.alphabet_eq]
  refine and_congr_right fun hw => ?_
  have htarget := h.isTarget_run hw
  cases hrun : D.run 0 w with
  | none =>
    rw [hrun] at htarget
    rw [show N.reach w = ∅ from htarget]
    simp [StateSet.meets_iff]
  | some i =>
    rw [hrun] at htarget
    simp [h.isAccepting_iff htarget]

end IsSubsetAutomaton

/-- **The subset construction numbers its states breadth first.**  Some word over the alphabet leads
to every state, so one is the first, by length and then by the alphabet; and a state has a lower
number than another exactly if its first word comes before that of the other. -/
theorem toDfa_numbering (N : Nfa) : ∃ D, N.toDfa .null = .ok D ∧ D.alphabet = N.alphabet ∧
    (∀ i < D.size, ∃! w, N.alphabet.IsFirst (D.IsWordTo i) w) ∧
    ∀ (i j : Nat) (v w : List Symbol), N.alphabet.IsFirst (D.IsWordTo i) v →
      N.alphabet.IsFirst (D.IsWordTo j) w → (i < j ↔ N.alphabet.WordBefore v w) := by
  obtain ⟨D, hD, h⟩ := N.exists_toDfa
  refine ⟨D, hD, h.alphabet_eq, fun i hi => h.existsUnique_isFirst hi, ?_⟩
  exact fun i j v w hv hw => h.lt_iff_wordBefore hv hw

end Nfa

end FiniteAutomata
