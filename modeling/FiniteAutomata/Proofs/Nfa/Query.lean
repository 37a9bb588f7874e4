import FiniteAutomata.Proofs.Reach

/-!
# Proofs/Nfa/Query — what a state leads to, and the states of an automaton

`Nfa.query` is read off the listed transitions (`Nfa.mem_query`), and all else that the simulation
asks of them can be said through it (`Nfa.mem_move_iff_query`). Whatever a listed transition leads
from or to is a state of the automaton, so the sets that the simulation goes through are sets of its
states (`StateSet.Within`).
-/

namespace FiniteAutomata

/-- All members are among the first `n` states. -/
def StateSet.Within (n : Nat) (S : StateSet) : Prop := ∀ s ∈ S, InRange n s

namespace Nfa

variable {N : Nfa}

/-! ## Queries -/

theorem mem_query {s x : State} {l : Label} :
    x ∈ N.query s l ↔ ∃ t ∈ N.transitions, t.Reads l ∧ t.source = s ∧ t.target = x := by
  simp [query, mem_move]

/-- A move from a set is one from a member. -/
theorem mem_move_iff_query {S : StateSet} {l : Label} {x : State} :
    x ∈ N.move S l ↔ ∃ s ∈ S, x ∈ N.query s l := by
  simp only [mem_move, mem_query]
  constructor
  · rintro ⟨t, ht, hr, hs, hx⟩
    exact ⟨t.source, hs, t, ht, hr, rfl, hx⟩
  · rintro ⟨s, hs, t, ht, hr, rfl, hx⟩
    exact ⟨t, ht, hr, hs, hx⟩

theorem inRange_of_mem_query {s x : State} {l : Label} (h : x ∈ N.query s l) :
    InRange N.stateCount s ∧ InRange N.stateCount x := by
  obtain ⟨t, ht, -, rfl, rfl⟩ := mem_query.mp h
  exact ⟨(N.transitions_fit t ht).source_inRange, (N.transitions_fit t ht).target_inRange⟩

/-- What a listed transition reads is a label over the alphabet. -/
theorem mem_alphabet_of_mem_query {s x : State} {l : Label} (h : x ∈ N.query s l) :
    ∀ a, l = .symbol a → a ∈ N.alphabet := by
  rintro a rfl
  obtain ⟨t, ht, hr, -, -⟩ := mem_query.mp h
  exact (N.transitions_fit t ht).inputs_mem a hr

theorem target_mem_query {t : Transition} (ht : t ∈ N.transitions) {l : Label} (hr : t.Reads l) :
    t.target ∈ N.query t.source l :=
  mem_query.mpr ⟨t, ht, hr, rfl, rfl⟩

/-! ## Sets of states of the automaton -/

theorem within_move (S : StateSet) (l : Label) : (N.move S l).Within N.stateCount := by
  intro x hx
  obtain ⟨s, -, hs⟩ := mem_move_iff_query.mp hx
  exact (inRange_of_mem_query hs).2

theorem Path.inRange {x y : State} {w : List Symbol} (h : N.Path x w y)
    (hx : InRange N.stateCount x) : InRange N.stateCount y := by
  induction h with
  | done => exact hx
  | skip ht _ _ ih => exact ih (N.transitions_fit _ ht).target_inRange
  | read ht _ _ ih => exact ih (N.transitions_fit _ ht).target_inRange

theorem within_closure {S : StateSet} (hS : S.Within N.stateCount) :
    (N.closure S).Within N.stateCount := by
  intro x hx
  obtain ⟨s, hs, hpath⟩ := mem_closure.mp hx
  exact hpath.inRange (hS s hs)

theorem within_step (S : StateSet) (a : Symbol) : (N.step S a).Within N.stateCount :=
  within_closure (within_move S _)

theorem within_singleton_start (N : Nfa) : (StateSet.singleton N.start).Within N.stateCount :=
  fun _ hs => StateSet.mem_singleton.mp hs ▸ N.start_inRange

theorem within_accepting (N : Nfa) : N.accepting.Within N.stateCount := N.accepting_inRange

theorem within_reach (w : List Symbol) : (N.reach w).Within N.stateCount := fun _ hx =>
  (mem_reach.mp hx).inRange N.start_inRange

end Nfa

end FiniteAutomata
