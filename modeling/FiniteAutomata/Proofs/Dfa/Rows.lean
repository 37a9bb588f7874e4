import FiniteAutomata.Proofs.Dfa.Assembly
import FiniteAutomata.Proofs.Nfa.Assembly

/-!
# Proofs/Dfa/Rows — rows of targets that fit are put together as they are given

A table gives each state the set that holds only its number as identity, and a target or none for
each symbol. If all targets and all accepting states are numbers of rows, no check fails and the
automaton has just these states (`Dfa.exists_ofTable`), so it moves and accepts as the table says
(`Dfa.exists_hasTable`).
-/

namespace FiniteAutomata

namespace Dfa

variable {A : Alphabet} {n : Nat} {t : Nat → Symbol → Option Nat} {F : List Nat}

/-- The row of a state: a target or none for each symbol. -/
def tableRow (A : Alphabet) (t : Nat → Symbol → Option Nat) (i : Nat) :
    List (Symbol × Option Nat) :=
  A.symbols.map fun a => (a, t i a)

/-- A row as it stands in a table. -/
def tableValue (A : Alphabet) (t : Nat → Symbol → Option Nat) (i : Nat) : Value :=
  .list (A.symbols.map fun a => givenTarget (t i a))

theorem givenRow_tableValue (i : Nat) :
    givenRow A i (tableValue A t i) = .ok (givenPair (.singleton i, tableRow A t i)) := by
  have hsize : (tableValue A t i).size = .ok A.size := congrArg Except.ok (List.length_map _)
  have hzip : (A.symbols.map Value.text).zip (A.symbols.map fun a => givenTarget (t i a)) =
      givenTargets (tableRow A t i) := by
    rw [List.zip_map', givenTargets, tableRow, List.map_map]
    rfl
  refine bind_eq_ok.mpr ⟨_, hsize, ?_⟩
  rw [if_neg (not_not.mpr rfl)]
  exact bind_eq_ok.mpr ⟨_, rfl, congrArg (fun es => Except.ok (GivenState.state _ es)) hzip⟩

/-- The identities and rows of the states that a table gives. -/
def tablePairs (A : Alphabet) (n : Nat) (t : Nat → Symbol → Option Nat) :
    List (StateSet × List (Symbol × Option Nat)) :=
  (List.range n).map fun (i : Nat) => (.singleton i, tableRow A t i)

theorem mapM_givenRow : ((List.range n).map (tableValue A t)).zipIdx.mapM
    (fun p => givenRow A p.2 p.1) = .ok ((tablePairs A n t).map givenPair) := by
  refine (mapM_eq_ok_map (f := fun p => givenPair (.singleton p.2, tableRow A t p.2))
    fun p hp => ?_).trans (congrArg Except.ok (List.ext_getElem (by simp [tablePairs]) fun i _ _ =>
      by simp [tablePairs]))
  obtain ⟨_, hp⟩ := List.getElem?_eq_some_iff.mp (List.mem_zipIdx_iff_getElem?.mp hp)
  rw [← hp, List.getElem_map, List.getElem_range]
  exact givenRow_tableValue p.2

/-- Numbers are told apart by the sets that hold only them. -/
theorem pairwise_tablePairs :
    (tablePairs A n t).Pairwise fun p q => Identity.same p.1 q.1 = false := by
  refine List.pairwise_map.mpr (List.pairwise_lt_range.imp fun {i j} hij => ?_)
  refine beq_eq_false_iff_ne.mpr fun he => Nat.ne_of_lt hij (Int.ofNat_inj.mp ?_)
  have hmem : (i : Int) ∈ StateSet.singleton i := StateSet.mem_singleton.mpr rfl
  rw [show StateSet.singleton (i : Int) = .singleton (j : Int) from he] at hmem
  exact StateSet.mem_singleton.mp hmem

theorem fits_of_mem_tablePairs (ht : ∀ i < n, ∀ a j, t i a = some j → j < n) :
    ∀ p ∈ tablePairs A n t, (ofPair p).Fits n A := by
  refine List.forall_mem_map.mpr fun i hi => ⟨?_, ?_⟩
  · simp [ofPair, tableRow, Function.comp_def]
  · refine List.forall_mem_map.mpr fun a _ j hj => ?_
    exact ht i (List.mem_range.mp hi) a j hj

/-- **Rows of targets below their number make an automaton**, whose states stand for their
numbers. -/
theorem exists_ofTable (hn : 0 < n) (ht : ∀ i < n, ∀ a j, t i a = some j → j < n)
    (hF : ∀ c ∈ F, c < n) :
    ∃ E, ofTable (.list ((List.range n).map (tableValue A t)))
        (.list (F.map fun (c : Nat) => .int c)) (.list (A.symbols.map .text)) = .ok E ∧
      E.alphabet = A ∧ E.states = (tablePairs A n t).map ofPair ∧
      E.accepting = .ofList (F.map Int.ofNat) := by
  have hlen : (tablePairs A n t).length = n := by simp [tablePairs]
  have hcount : ((tablePairs A n t).map givenPair).length = n := (List.length_map _).trans hlen
  have hne : tablePairs A n t ≠ [] := List.length_pos_iff.mp (hlen.symm ▸ hn)
  have hfits : ∀ p ∈ tablePairs A n t, (ofPair p).Fits (tablePairs A n t).length A :=
    hlen.symm ▸ fits_of_mem_tablePairs ht
  have hstates : ∀ s ∈ F.map Int.ofNat, 0 ≤ s ∧ s < ((tablePairs A n t).map givenPair).length := by
    rw [hcount]
    exact List.forall_mem_map.mpr fun c hc => ⟨Int.natCast_nonneg c, Int.ofNat_lt.mpr (hF c hc)⟩
  obtain ⟨states, hchecked, hvals⟩ := Value.exists_mapM_checkState "accept_states" hstates
  obtain ⟨E, hE, hparts⟩ : ∃ E, ofStates ((tablePairs A n t).map givenPair) A
      (.ofList (F.map Int.ofNat)) = .ok E ∧ E.alphabet = A ∧
        E.states = (tablePairs A n t).map ofPair ∧ E.accepting = .ofList (F.map Int.ofNat) :=
    ofStates_givenStates hne pairwise_tablePairs hfits
  rw [List.map_map] at hchecked
  rw [← hvals] at hE
  exact ⟨E, bind_eq_ok.mpr ⟨A, Alphabet.ofValue_eq_ok.mpr rfl, bind_eq_ok.mpr ⟨_, rfl,
    bind_eq_ok.mpr ⟨_, mapM_givenRow, bind_eq_ok.mpr ⟨_, rfl,
      bind_eq_ok.mpr ⟨states, hchecked, hE⟩⟩⟩⟩⟩, hparts⟩

/-! ## What such an automaton does -/

/-- **The automaton moves and accepts as a table of `n` rows says.** -/
structure HasTable (E : Dfa StateSet) (A : Alphabet) (n : Nat) (t : Nat → Symbol → Option Nat)
    (F : List Nat) : Prop where
  alphabet_eq : E.alphabet = A
  size_eq : E.size = n
  target_eq : ∀ i < n, ∀ a ∈ A, E.target i a = t i a
  isAccepting_iff : ∀ i < n, (E.isAccepting i = true ↔ i ∈ F)

theorem getElem?_tablePairs {i : Nat} (hi : i < n) :
    ((tablePairs A n t).map ofPair)[i]? = some ⟨.singleton i, tableRow A t i⟩ := by
  rw [tablePairs, List.getElem?_map, List.getElem?_map, List.getElem?_range hi]
  rfl

/-- A number meets the accepting states if it is one of them. -/
theorem meets_ofList_iff {i : Nat} :
    (StateSet.singleton i).meets (.ofList (F.map Int.ofNat)) = true ↔ i ∈ F := by
  rw [StateSet.meets_iff]
  constructor
  · rintro ⟨s, hs, hF⟩
    obtain rfl := StateSet.mem_singleton.mp hs
    obtain ⟨j, hj, hji⟩ := List.mem_map.mp (StateSet.mem_ofList.mp hF)
    exact Int.ofNat_inj.mp hji ▸ hj
  · intro hi
    exact ⟨i, StateSet.mem_singleton.mpr rfl,
      StateSet.mem_ofList.mpr (List.mem_map_of_mem (f := Int.ofNat) hi)⟩

/-- **Rows of targets below their number make an automaton** that has them as its table. -/
theorem exists_hasTable (hn : 0 < n) (ht : ∀ i < n, ∀ a j, t i a = some j → j < n)
    (hF : ∀ c ∈ F, c < n) :
    ∃ E, ofTable (.list ((List.range n).map (tableValue A t)))
        (.list (F.map fun (c : Nat) => .int c)) (.list (A.symbols.map .text)) = .ok E ∧
      E.HasTable A n t F := by
  obtain ⟨E, hE, halphabet, hstates, haccepting⟩ := exists_ofTable (A := A) hn ht hF
  have hget : ∀ i < n, E.states[i]? = some ⟨.singleton i, tableRow A t i⟩ := fun i hi => by
    rw [hstates]
    exact getElem?_tablePairs hi
  refine ⟨E, hE, halphabet, ?_, fun i hi a ha => ?_, fun i hi => ?_⟩
  · rw [size, hstates]
    simp [tablePairs]
  · have hlookup : (tableRow A t i).lookup a = some (t i a) := List.lookup_graph _ ha
    rw [target, hget i hi]
    simp [hlookup]
  · rw [isAccepting, hget i hi, haccepting]
    exact meets_ofList_iff

end Dfa

end FiniteAutomata
