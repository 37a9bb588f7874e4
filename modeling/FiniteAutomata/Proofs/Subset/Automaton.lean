import FiniteAutomata.Dfa.Run
import FiniteAutomata.Proofs.Dfa.Assembly
import FiniteAutomata.Proofs.Subset.Worklist

/-!
# Proofs/Subset/Automaton — the states of the subset construction are the sets that words lead to

Without a limit the construction always yields an automaton (`Nfa.exists_toDfa`), and that automaton
is what `Nfa.IsSubsetAutomaton` says: its identities are the sets that were found, and each move
leads to the number of the set that one more symbol leads to. Hence a word leads to the state whose
identity is the set that the word leads to, and is missing exactly if that set is empty
(`IsSubsetAutomaton.isTarget_run`). `Nfa.toDfa_reaches` says all this of paths through the listed
transitions.
-/

namespace FiniteAutomata

/-- The identities of the states in order. -/
def Dfa.identities {σ : Type} (D : Dfa σ) : List σ := D.states.map (·.identity)

theorem Dfa.length_identities {σ : Type} (D : Dfa σ) : D.identities.length = D.size :=
  List.length_map _

namespace Nfa

variable {N : Nfa}

/-- **The automaton has the sets that were found as identities**, and its moves are theirs. -/
structure IsSubsetAutomaton (N : Nfa) (D : Dfa StateSet) : Prop where
  alphabet_eq : D.alphabet = N.alphabet
  accepting_eq : D.accepting = N.accepting
  explored : N.Explored D.identities fun m => m.1 < D.size ∧ m.2 ∈ N.alphabet
  isTarget : ∀ (i : Nat) (S : StateSet) (a : Symbol), D.identities[i]? = some S →
    a ∈ N.alphabet → IsTarget D.identities (N.step S a) (D.target i a)

/-! ## Putting the automaton together -/

theorem IsRow.exists_lookup {T : List StateSet} {S : StateSet} {symbols : List Symbol}
    {row : List (Symbol × Option Nat)} (h : N.IsRow T S symbols row) {a : Symbol}
    (ha : a ∈ symbols) : ∃ o, row.lookup a = some o ∧ IsTarget T (N.step S a) o := by
  cases ho : row.lookup a with
  | none =>
    rw [← h.symbols_eq] at ha
    obtain ⟨e, he, rfl⟩ := List.mem_map.mp ha
    simpa using List.lookup_eq_none_iff.mp ho e he
  | some o =>
    obtain ⟨l, r, hsplit, -⟩ := List.lookup_eq_some_iff.mp ho
    have hmem : (a, o) ∈ row := by
      rw [hsplit]
      simp
    exact ⟨o, rfl, h.isTarget (a, o) hmem⟩

/-- A row over the alphabet fits an automaton with one state for each listed set. -/
theorem IsRow.fits {T : List StateSet} {S : StateSet} {row : List (Symbol × Option Nat)}
    (h : N.IsRow T S N.alphabet.symbols row) :
    (⟨S, row⟩ : DfaState StateSet).Fits T.length N.alphabet where
  symbols_perm := h.symbols_eq ▸ List.Perm.refl _
  targets_lt e he t ht := by
    have htarget := h.isTarget e he
    rw [ht] at htarget
    exact (List.getElem?_eq_some_iff.mp htarget).1

/-- The sets that were found, each with its row. -/
def found (e : Exploration) : List (StateSet × List (Symbol × Option Nat)) :=
  e.found.identities.zip e.rows

theorem givenStates_eq (e : Exploration) : givenStates e = (found e).map Dfa.givenPair := by
  refine List.map_congr_left fun p _ => ?_
  refine congrArg (GivenState.state p.1) (List.map_congr_left fun q _ => ?_)
  rcases q with ⟨a, _ | i⟩ <;> rfl

namespace Sound

variable {e : Exploration} (h : N.Sound e) (hlen : e.rows.length = e.found.identities.length)

include hlen in
theorem map_fst_found : (found e).map Prod.fst = e.found.identities := List.map_fst_zip hlen.ge

include hlen in
theorem length_found : (found e).length = e.found.identities.length := by
  rw [← map_fst_found hlen, List.length_map]

include h in
theorem isRow_of_found {i : Nat} {S : StateSet} {row : List (Symbol × Option Nat)}
    (hi : (found e)[i]? = some (S, row)) :
    N.IsRow e.found.identities S N.alphabet.symbols row :=
  have hboth := List.getElem?_zip_eq_some.mp hi
  h.isRow i row S hboth.2 hboth.1

include h hlen in
theorem found_ne_nil : found e ≠ [] := fun h0 => by
  have hhead := h.explored.head
  rw [← map_fst_found hlen, h0] at hhead
  nomatch hhead

include h hlen in
theorem pairwise_found : (found e).Pairwise fun p q => Identity.same p.1 q.1 = false := by
  have hnodup : ((found e).map Prod.fst).Pairwise (· ≠ ·) := by
    rw [map_fst_found hlen]
    exact h.explored.nodup
  exact (List.pairwise_map.mp hnodup).imp fun hpq => beq_eq_false_iff_ne.mpr hpq

include h hlen in
theorem fits_of_mem_found : ∀ p ∈ found e, (Dfa.ofPair p).Fits (found e).length N.alphabet := by
  rintro ⟨S, row⟩ hp
  obtain ⟨i, hi⟩ := List.mem_iff_getElem?.mp hp
  rw [length_found hlen]
  exact (h.isRow_of_found hi).fits

end Sound

/-- **Without a limit there is an automaton of the sets that were found.** -/
theorem exists_toDfa (N : Nfa) : ∃ D, N.toDfa .null = .ok D ∧ N.IsSubsetAutomaton D := by
  obtain ⟨e, hrun, h, hlen⟩ := N.exists_exploration
  obtain ⟨D, hD, halphabet, hstates, haccepting⟩ := Dfa.ofStates_givenStates
    (h.found_ne_nil hlen) (h.pairwise_found hlen) (h.fits_of_mem_found hlen)
  have hids : D.identities = e.found.identities := by
    rw [Dfa.identities, hstates, List.map_map]
    exact Sound.map_fst_found hlen
  have hsize : D.size = e.rows.length := by rw [← Dfa.length_identities, hids, hlen]
  refine ⟨D, ?_, halphabet, haccepting, ?_, fun i S a hi ha => ?_⟩
  · rw [toDfa, hrun, ← hD, ← givenStates_eq]
    rfl
  · rw [hids]
    refine h.explored.congr fun m => ?_
    simp [Followed, hsize, and_comm]
  · rw [hids] at hi ⊢
    have hlt : i < e.rows.length := hlen ▸ (List.getElem?_eq_some_iff.mp hi).1
    have hpair : (found e)[i]? = some (S, e.rows[i]) :=
      List.getElem?_zip_eq_some.mpr ⟨hi, List.getElem?_eq_getElem hlt⟩
    obtain ⟨o, ho, htarget⟩ := (h.isRow_of_found hpair).exists_lookup (Alphabet.mem_symbols.mpr ha)
    have hget : D.states[i]? = some ⟨S, e.rows[i]⟩ := by
      rw [hstates, List.getElem?_map, hpair]
      rfl
    rw [Dfa.target, hget]
    simp only [Option.bind_eq_bind, Option.bind_some, ho]
    exact htarget

/-! ## Words -/

namespace IsSubsetAutomaton

variable {D : Dfa StateSet} (h : N.IsSubsetAutomaton D)

include h

/-- **A word leads to the state of the set it leads to**, and nowhere if that set is empty. -/
theorem isTarget_run {w : List Symbol} (hw : ∀ a ∈ w, a ∈ N.alphabet) :
    IsTarget D.identities (N.reach w) (D.run 0 w) := by
  induction w using List.reverseRecOn with
  | nil => exact h.explored.head
  | append_singleton w a ih =>
    obtain ⟨hw, ha⟩ := List.forall_mem_append.mp hw
    have hw := ih hw
    rw [reach_concat, Dfa.run_append]
    cases hrun : D.run 0 w with
    | none =>
      rw [hrun] at hw
      rw [show N.reach w = ∅ from hw]
      exact step_empty a
    | some i =>
      rw [hrun] at hw
      have hi := h.isTarget i (N.reach w) a hw (ha a (List.mem_singleton_self a))
      have hrun' : D.run i [a] = D.target i a := by simp
      rw [Option.bind_some, hrun']
      exact hi

/-- The number of a listed set is the only one it has. -/
theorem eq_of_getElem? {i j : Nat} {S : StateSet} (hi : D.identities[i]? = some S)
    (hj : D.identities[j]? = some S) : i = j := by
  have hlt := (List.getElem?_eq_some_iff.mp hi).1
  exact (List.getElem?_inj hlt h.explored.nodup).mp (hi.trans hj.symm)

/-- A word leads to the state with a set as identity if the set is what the word leads to. -/
theorem run_eq_some_iff {w : List Symbol} (hw : ∀ a ∈ w, a ∈ N.alphabet) {i : Nat} :
    D.run 0 w = some i ↔ D.identities[i]? = some (N.reach w) := by
  have htarget := h.isTarget_run hw
  constructor
  · intro hi
    rwa [hi] at htarget
  · intro hi
    cases hrun : D.run 0 w with
    | none =>
      rw [hrun] at htarget
      exact absurd htarget (h.explored.ne_empty _ (List.mem_iff_getElem?.mpr ⟨i, hi⟩))
    | some j =>
      rw [hrun] at htarget
      rw [h.eq_of_getElem? htarget hi]

/-- **The identities are the sets to which words lead**, except the empty one. -/
theorem mem_identities_iff {S : StateSet} : S ∈ D.identities ↔
    S ≠ ∅ ∧ ∃ w, (∀ a ∈ w, a ∈ N.alphabet) ∧ N.Reaches w S := by
  constructor
  · intro hS
    obtain ⟨i, hi⟩ := List.mem_iff_getElem?.mp hS
    obtain ⟨w, hw, rfl⟩ := h.explored.exists_word hi
    exact ⟨h.explored.ne_empty _ hS, w, hw, reaches_reach w⟩
  · rintro ⟨hne, w, hw, hS⟩
    obtain rfl := reaches_iff.mp hS
    have htarget := h.isTarget_run hw
    cases hrun : D.run 0 w with
    | none =>
      rw [hrun] at htarget
      exact absurd htarget hne
    | some i =>
      rw [hrun] at htarget
      exact List.mem_iff_getElem?.mpr ⟨i, htarget⟩

variable {i : Nat} {S : StateSet} {w : List Symbol} {a : Symbol}
  (hi : D.identities[i]? = some S) (hS : N.Reaches w S) (ha : a ∈ N.alphabet)

include hi hS ha

/-- The move of a state is to the set that the word with one more symbol leads to. -/
theorem isTarget_concat : IsTarget D.identities (N.reach (w ++ [a])) (D.target i a) := by
  rw [reach_concat, ← reaches_iff.mp hS]
  exact h.isTarget i S a hi ha

/-- A move is missing if the word with one more symbol leads nowhere. -/
theorem target_eq_none_iff : D.target i a = none ↔ N.Reaches (w ++ [a]) ∅ := by
  have htarget := h.isTarget_concat hi hS ha
  rw [reaches_iff]
  cases ho : D.target i a with
  | none =>
    rw [ho] at htarget
    exact ⟨fun _ => htarget.symm, fun _ => rfl⟩
  | some j =>
    rw [ho] at htarget
    refine ⟨fun hnone => absurd hnone (Option.some_ne_none j), fun hempty => ?_⟩
    exact absurd hempty.symm (h.explored.ne_empty _ (List.mem_iff_getElem?.mpr ⟨j, htarget⟩))

theorem exists_of_target {j : Nat} (hj : D.target i a = some j) :
    ∃ T, D.identities[j]? = some T ∧ N.Reaches (w ++ [a]) T := by
  have htarget := h.isTarget_concat hi hS ha
  rw [hj] at htarget
  exact ⟨_, htarget, reaches_reach _⟩

end IsSubsetAutomaton

/-- **The subset construction is exact.**  It always yields an automaton without a limit; its
identities are the sets to which words lead, except the empty one, each once; the first is that of
the empty word, and every move leads from the set of a word to the set of the word with one more
symbol, or is missing exactly if that set is empty. -/
theorem toDfa_reaches (N : Nfa) : ∃ D, N.toDfa .null = .ok D ∧ D.alphabet = N.alphabet ∧
    D.identities.Nodup ∧
    (∀ S, S ∈ D.identities ↔ S ≠ ∅ ∧ ∃ w, (∀ a ∈ w, a ∈ N.alphabet) ∧ N.Reaches w S) ∧
    (∃ S, D.identities[0]? = some S ∧ N.Reaches [] S) ∧
    ∀ (i : Nat) (S : StateSet) (w : List Symbol), D.identities[i]? = some S → N.Reaches w S →
      ∀ a ∈ N.alphabet, (D.target i a = none ↔ N.Reaches (w ++ [a]) ∅) ∧
        ∀ j, D.target i a = some j → ∃ T, D.identities[j]? = some T ∧ N.Reaches (w ++ [a]) T := by
  obtain ⟨D, hD, h⟩ := N.exists_toDfa
  refine ⟨D, hD, h.alphabet_eq, h.explored.nodup, fun S => h.mem_identities_iff, ?_, ?_⟩
  · exact ⟨N.startSet, h.explored.head, reaches_reach []⟩
  · intro i S w hi hS a ha
    exact ⟨h.target_eq_none_iff hi hS ha, fun j hj => h.exists_of_target hi hS ha hj⟩

end Nfa

end FiniteAutomata
