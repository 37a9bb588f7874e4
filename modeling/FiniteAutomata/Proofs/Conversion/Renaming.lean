import FiniteAutomata.Proofs.Conversion.Language
import FiniteAutomata.Proofs.Minimized.Congruence
import FiniteAutomata.Proofs.Subset.Renaming

/-!
# Proofs/Conversion/Renaming — a conversion depends on moves alone

What a conversion yields is fixed by what each state leads to on each label: neither the names of
the states nor the way in which the moves are listed as transitions matter, but for the names in the
identities (`Nfa.convert_renamed`).
-/

namespace FiniteAutomata

namespace Nfa

variable {N M : Nfa} {p : State → State}

/-- Identities are sets of states. -/
theorem IsSubsetAutomaton.within_identities {D : Dfa StateSet} (h : N.IsSubsetAutomaton D) :
    ∀ S ∈ D.identities, S.Within N.stateCount := by
  intro S hS
  obtain ⟨i, hi⟩ := List.mem_iff_getElem?.mp hS
  obtain ⟨w, -, rfl⟩ := h.explored.exists_word hi
  exact within_reach w

/-- The automaton of the images has the same moves and accepts alike. -/
theorem IsRenaming.parallel_image (h : N.IsRenaming M p) {D : Dfa StateSet}
    (hD : N.IsSubsetAutomaton D) : D.Parallel (D.image p) where
  alphabet_eq := rfl
  size_eq := Dfa.size_image
  target_eq := Dfa.target_image
  isAccepting_eq := Dfa.isAccepting_image h.bijOn.injOn hD.within_identities
    (hD.accepting_eq ▸ N.within_accepting)

/-- **Renaming the states, or listing the moves otherwise, changes nothing but the names** in the
identities: the states of the two subset constructions are numbered alike, with the same rows and
the same accepting states, each identity being the image of the other, and the minimized forms are
equal.  A limit stops both constructions with the same error, or changes nothing in either. -/
theorem convert_renamed (h : N.IsRenaming M p) :
    (∃ c d, (Amended.ofNfa N).convert .null = .ok c ∧ (Amended.ofNfa M).convert .null = .ok d ∧
      N.toDfa .null = .ok c.dfa ∧ M.toDfa .null = .ok d.dfa ∧
      d.dfa.size = c.dfa.size ∧ (∀ i, d.dfa.row i = c.dfa.row i) ∧
      d.dfa.acceptStates = c.dfa.acceptStates ∧
      d.dfa.identities = c.dfa.identities.map (·.image p) ∧
      d.minimized = c.minimized) ∧
    ∀ limit, (∃ e, N.toDfa limit = .error e ∧ M.toDfa limit = .error e) ∨
      (N.toDfa limit = N.toDfa .null ∧ M.toDfa limit = M.toDfa .null) := by
  obtain ⟨D, hD, hsubset⟩ := N.exists_toDfa
  have himage : M.toDfa .null = .ok (D.image p) := by
    rw [h.toDfa_image, hD]
    rfl
  constructor
  · have hparallel := h.parallel_image hsubset
    refine ⟨⟨D, D.minimize⟩, ⟨D.image p, (D.image p).minimize⟩, ?_, ?_, hD, himage,
      hparallel.size_eq, fun i => ?_, ?_, Dfa.identities_image, hparallel.minimize_eq⟩
    · exact bind_eq_ok.mpr ⟨(), Amended.validate_ofNfa N, bind_eq_ok.mpr ⟨D, hD, rfl⟩⟩
    · exact bind_eq_ok.mpr ⟨(), Amended.validate_ofNfa M, bind_eq_ok.mpr ⟨_, himage, rfl⟩⟩
    · exact List.map_congr_left fun a _ => hparallel.target_eq i a
    · rw [Dfa.acceptStates, Dfa.acceptStates, hparallel.size_eq, funext hparallel.isAccepting_eq]
  · intro limit
    cases hlimit : N.toDfa limit with
    | error e =>
      left
      refine ⟨e, rfl, ?_⟩
      rw [h.toDfa_image, hlimit]
      rfl
    | ok D' =>
      right
      have hnull : N.toDfa .null = .ok D' := toDfa_null_of_ok hlimit
      refine ⟨hnull.symm, ?_⟩
      rw [h.toDfa_image, h.toDfa_image, hlimit, hnull]

/-! ## An automaton of three states, turned round -/

/-- The alphabet of two symbols. -/
def twoSymbols : Alphabet := ⟨["x", "y"], by decide, by decide, by decide⟩

/-- Three states in a ring: the first step is on any symbol, the second is empty. -/
def ring : Nfa where
  stateCount := 3
  alphabet := twoSymbols
  transitions := [⟨0, 1, ["x", "y"], by decide⟩, ⟨1, 2, [], List.not_mem_nil⟩,
    ⟨2, 0, ["y"], by decide⟩]
  start := 0
  accepting := .singleton 2
  start_inRange := by decide
  accepting_inRange := by decide
  transitions_fit t ht := by
    simp only [List.mem_cons, List.not_mem_nil, or_false] at ht
    rcases ht with rfl | rfl | rfl <;> exact ⟨by decide, by decide, by decide⟩

/-- The next state of the ring. -/
def turn (s : State) : State := if s = 2 then 0 else s + 1

/-- The ring with every state called by the name of the next, its moves listed one by one, some of
them twice. -/
def turnedRing : Nfa where
  stateCount := 3
  alphabet := twoSymbols
  transitions := [⟨0, 1, ["y", "y"], by decide⟩, ⟨1, 2, ["y"], by decide⟩,
    ⟨2, 0, [], List.not_mem_nil⟩, ⟨1, 2, ["x"], by decide⟩, ⟨2, 0, [], List.not_mem_nil⟩]
  start := 1
  accepting := .singleton 0
  start_inRange := by decide
  accepting_inRange := by decide
  transitions_fit t ht := by
    simp only [List.mem_cons, List.not_mem_nil, or_false] at ht
    rcases ht with rfl | rfl | rfl | rfl | rfl <;> exact ⟨by decide, by decide, by decide⟩

theorem eq_of_inRange_three {s : Int} (hs : InRange 3 s) : s = 0 ∨ s = 1 ∨ s = 2 := by
  have hlow : 0 ≤ s := hs.1
  have hhigh : s < 3 := hs.2
  omega

theorem isRenaming_turn : ring.IsRenaming turnedRing turn where
  stateCount_eq := rfl
  alphabet_eq := rfl
  bijOn := by
    refine ⟨fun s hs => ?_, fun s hs t ht hst => ?_, fun s hs => ?_⟩
    · rcases eq_of_inRange_three hs with rfl | rfl | rfl <;> decide
    · rcases eq_of_inRange_three hs with rfl | rfl | rfl <;>
        rcases eq_of_inRange_three ht with rfl | rfl | rfl <;> first | rfl | nomatch hst
    · rcases eq_of_inRange_three hs with rfl | rfl | rfl
      · exact ⟨2, by decide, rfl⟩
      · exact ⟨0, by decide, rfl⟩
      · exact ⟨1, by decide, rfl⟩
  start_eq := rfl
  accepting_eq := by decide
  query_eq s hs l hl := by
    have hlabel : l = .epsilon ∨ l = .symbol "x" ∨ l = .symbol "y" := by
      cases l with
      | epsilon => exact .inl rfl
      | symbol a =>
        rcases List.mem_pair.mp (hl a rfl) with rfl | rfl
        · exact .inr (.inl rfl)
        · exact .inr (.inr rfl)
    rcases eq_of_inRange_three hs with rfl | rfl | rfl <;>
      rcases hlabel with rfl | rfl | rfl <;> decide

theorem convert_renamed_turn : ring.IsRenaming turnedRing turn ∧
    ∃ c d, (Amended.ofNfa ring).convert .null = .ok c ∧
      (Amended.ofNfa turnedRing).convert .null = .ok d ∧
      d.dfa.identities = c.dfa.identities.map (·.image turn) ∧ d.minimized = c.minimized := by
  obtain ⟨⟨c, d, hc, hd, -, -, -, -, -, hidentities, hminimized⟩, -⟩ :=
    convert_renamed isRenaming_turn
  exact ⟨isRenaming_turn, c, d, hc, hd, hidentities, hminimized⟩

end Nfa

end FiniteAutomata
