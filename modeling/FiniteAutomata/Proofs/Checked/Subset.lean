import FiniteAutomata.Proofs.Checked.Simulation
import FiniteAutomata.Proofs.Subset.Automaton

/-!
# Proofs/Checked/Subset — the subset construction without any lookup being refused

The construction keeps a queue of the numbers of sets that have no row yet, takes the set of the
first from the table, and enters the row under that number; at the end every set of the table is
given with the row under its number. The checked construction does all this and passes on the error
of any lookup (`Nfa.checkedToDfa`). Numbers are given out in order, so the queue holds just those
from the number of rows on (`Exploration.worklist`), and each round is one of the plain construction
(`Nfa.checkedExplore_worklist`). When the queue is empty each number has its row, and none of the
checks on the states of the new automaton fails (`Nfa.checkedToDfa_eq`).
-/

namespace FiniteAutomata

/-! ## Tables of rows -/

/-- The members of a list under their places, the last one first. -/
def underPlaces {α : Type} (l : List α) : List (Nat × α) := (l.zipIdx.map Prod.swap).reverse

theorem underPlaces_concat {α : Type} (l : List α) (x : α) :
    underPlaces (l ++ [x]) = (l.length, x) :: underPlaces l := by
  simp [underPlaces, List.zipIdx_append]

/-- Under each place stands what stands there in the list. -/
theorem lookup_underPlaces {α : Type} (l : List α) (i : Nat) :
    (underPlaces l).lookup i = l[i]? := by
  induction l using List.reverseRecOn with
  | nil => rfl
  | append_singleton l x ih =>
    rw [underPlaces_concat, List.lookup_cons, ih]
    rcases Nat.lt_trichotomy i l.length with hlt | rfl | hlt
    · rw [List.getElem?_append_left hlt, beq_false_of_ne (Nat.ne_of_lt hlt)]
    · simp
    · have hle : (l ++ [x]).length ≤ i := by simpa using Nat.succ_le_of_lt hlt
      rw [List.getElem?_eq_none (Nat.le_of_lt hlt), List.getElem?_eq_none hle,
        beq_false_of_ne (Nat.ne_of_gt hlt)]

/-! ## The checked construction -/

/-- **How far the exploration has come**: the sets that have turned up, rows under the numbers of
their sets, and the numbers of the sets that are still to be explored. -/
structure Worklist where
  found : IdentityTable StateSet
  rows : List (Nat × List (Symbol × Option Nat))
  queue : List Nat

namespace Nfa

/-- The row of a set, the numbers of the sets that are new in it, and the table that has them,
unless a lookup is refused. -/
def checkedVisit (N : Nfa) (S : StateSet) : List Symbol → IdentityTable StateSet →
    Except Error (List (Symbol × Option Nat) × List Nat × IdentityTable StateSet)
  | [], found => .ok ([], [], found)
  | a :: symbols, found => do
    let T ← N.checkedStep S a
    if T.isEmpty then
      let r ← checkedVisit N S symbols found
      return ((a, none) :: r.1, r.2)
    else
      let known := found.insert T
      let r ← checkedVisit N S symbols known.2.2
      return ((a, some known.1) :: r.1, (if known.2.1 then [known.1] else []) ++ r.2.1, r.2.2)

/-- Explores the first set in the queue, unless a lookup is refused. -/
def checkedRound (N : Nfa) (w : Worklist) : Except Error Worklist :=
  match w.queue with
  | [] => .ok w
  | i :: queue => do
    let S ← entryAt w.found.identities i
    let r ← N.checkedVisit S N.alphabet.symbols w.found
    return ⟨r.2.2, (i, r.1) :: w.rows, queue ++ r.2.1⟩

/-- So many rounds, unless a lookup is refused. -/
def checkedExplore (N : Nfa) : Nat → Worklist → Except Error Worklist
  | 0, w => .ok w
  | k + 1, w => do checkedExplore N k (← N.checkedRound w)

/-- **The deterministic automaton of the sets of states, unless a lookup or a check of its states is
refused.** A set that has no row when the rounds are over is one such lookup. -/
def checkedToDfa (N : Nfa) : Except Error (Dfa StateSet) := do
  let first := IdentityTable.empty.insert (← N.checkedStart)
  let w ← N.checkedExplore (N.subsetBound + 1) ⟨first.2.2, [], [first.1]⟩
  let given ← w.found.identities.zipIdx.mapM fun p => do
    return Dfa.givenPair (p.1, ← entryUnder w.rows p.2)
  Dfa.ofStates given N.alphabet N.accepting

/-! ## Rounds -/

variable {N : Nfa} {S : StateSet}

/-- The number of a set that is new is the next. -/
theorem exists_size_insert (found : IdentityTable StateSet) (T : StateSet) :
    ∃ n, (found.insert T).2.2.size = found.size + n ∧
      (if (found.insert T).2.1 then [(found.insert T).1] else []) = List.range' found.size n := by
  by_cases h : T ∈ found.identities
  · obtain ⟨i, -, hinsert⟩ := IdentityTable.insert_of_mem h
    rw [hinsert]
    exact ⟨0, rfl, rfl⟩
  · rw [IdentityTable.insert_of_notMem h]
    exact ⟨1, List.length_append, rfl⟩

/-- **A row is not refused, and the numbers that are new in it follow on those of the table.** -/
theorem checkedVisit_eq : ∀ {symbols : List Symbol} {found : IdentityTable StateSet}
    {r : List (Symbol × Option Nat) × IdentityTable StateSet}, (∀ a ∈ symbols, a ∈ N.alphabet) →
    N.visit .null S symbols found = .ok r →
    ∃ n, r.2.size = found.size + n ∧
      N.checkedVisit S symbols found = .ok (r.1, List.range' found.size n, r.2)
  | [], found, r, _, h => by
      obtain rfl := Except.ok.inj h
      exact ⟨0, rfl, rfl⟩
  | a :: symbols, found, r, hsymbols, h => by
      obtain ⟨ha, hsymbols⟩ := List.forall_mem_cons.mp hsymbols
      rw [checkedVisit, checkedStep_eq ha]
      by_cases hempty : N.step S a = ∅
      · rw [visit_cons_of_empty hempty] at h
        obtain ⟨r', hrest, hr⟩ := bind_eq_ok.mp h
        obtain rfl := Except.ok.inj hr
        obtain ⟨n, hn, hchecked⟩ := checkedVisit_eq hsymbols hrest
        refine ⟨n, hn, bind_eq_ok.mpr ⟨_, rfl, ?_⟩⟩
        rw [if_pos (StateSet.isEmpty_iff.mpr hempty)]
        exact bind_eq_ok.mpr ⟨_, hchecked, rfl⟩
      · rw [visit_null_cons hempty] at h
        obtain ⟨r', hrest, hr⟩ := bind_eq_ok.mp h
        obtain rfl := Except.ok.inj hr
        obtain ⟨m, hm, hnew⟩ := exists_size_insert found (N.step S a)
        obtain ⟨n, hn, hchecked⟩ := checkedVisit_eq hsymbols hrest
        rw [hm] at hn hchecked
        refine ⟨m + n, hn.trans (Nat.add_assoc ..), bind_eq_ok.mpr ⟨_, rfl, ?_⟩⟩
        rw [if_neg (mt StateSet.isEmpty_iff.mp hempty)]
        refine bind_eq_ok.mpr ⟨_, hchecked, ?_⟩
        simp only [hnew, List.range'_append_1]
        rfl

end Nfa

/-- The worklist of an exploration: the rows under their numbers, and all later numbers to come. -/
def Exploration.worklist (e : Exploration) : Worklist :=
  ⟨e.found, underPlaces e.rows, List.range' e.rows.length (e.found.size - e.rows.length)⟩

namespace Nfa

variable {N : Nfa}

/-- Rounds with an empty queue change nothing. -/
theorem checkedExplore_of_nil {w : Worklist} (h : w.queue = []) (k : Nat) :
    N.checkedExplore k w = .ok w := by
  induction k with
  | zero => rfl
  | succ k ih =>
    have hround : N.checkedRound w = .ok w := by rw [checkedRound, h]
    exact bind_eq_ok.mpr ⟨w, hround, ih⟩

/-- A round takes the next number from the queue and puts those that are new at its end. -/
theorem checkedRound_worklist {e : Exploration} {S : StateSet}
    {r : List (Symbol × Option Nat) × IdentityTable StateSet}
    (hS : e.found.identities[e.rows.length]? = some S)
    (hvisit : N.visit .null S N.alphabet.symbols e.found = .ok r) :
    e.found.size ≤ r.2.size ∧
      N.checkedRound e.worklist = .ok (Exploration.worklist ⟨r.2, e.rows ++ [r.1]⟩) := by
  obtain ⟨n, hn, hchecked⟩ := checkedVisit_eq (fun _ => id) hvisit
  have hlt : e.rows.length < e.found.size := (List.getElem?_eq_some_iff.mp hS).1
  obtain ⟨m, hm⟩ := Nat.exists_eq_add_of_lt hlt
  have hqueue : e.worklist.queue = e.rows.length :: List.range' (e.rows.length + 1) m := by
    rw [Exploration.worklist, hm, Nat.add_assoc, Nat.add_sub_cancel_left]
    exact List.range'_succ
  have hnext : (Exploration.worklist ⟨r.2, e.rows ++ [r.1]⟩).queue =
      List.range' (e.rows.length + 1) m ++ List.range' e.found.size n := by
    have hsize : e.found.size = e.rows.length + 1 + m := hm.trans (Nat.add_right_comm ..)
    have hsub : r.2.size - (e.rows ++ [r.1]).length = m + n := by
      rw [hn, hsize, List.length_append, List.length_singleton]
      omega
    rw [Exploration.worklist, hsub, hsize, List.range'_append_1, List.length_append]
    rfl
  refine ⟨hn ▸ Nat.le_add_right _ _, ?_⟩
  rw [checkedRound, hqueue]
  refine bind_eq_ok.mpr ⟨S, entryAt_eq_ok hS, bind_eq_ok.mpr ⟨_, hchecked, ?_⟩⟩
  refine congrArg Except.ok ?_
  change _ = Worklist.mk _ (underPlaces (e.rows ++ [r.1])) _
  rw [underPlaces_concat, ← hnext]
  rfl

/-- **Rounds are those of the plain construction**, the queue always holding the numbers from the
number of rows on. -/
theorem checkedExplore_worklist : ∀ {k : Nat} {e e' : Exploration},
    e.rows.length ≤ e.found.size → N.explore .null k e = .ok e' →
    N.checkedExplore k e.worklist = .ok e'.worklist
  | 0, _, _, _, h => by
      obtain rfl := Except.ok.inj h
      rfl
  | k + 1, e, e', hle, h => by
      unfold explore at h
      cases hS : e.found.identities[e.rows.length]? with
      | none =>
        simp only [hS, Except.ok.injEq] at h
        have hsize : e.found.size ≤ e.rows.length := List.getElem?_eq_none_iff.mp hS
        have hqueue : e.worklist.queue = [] := by
          rw [Exploration.worklist, Nat.sub_eq_zero_of_le hsize]
          rfl
        rw [← h]
        exact checkedExplore_of_nil hqueue _
      | some S =>
        simp only [hS] at h
        obtain ⟨r, hvisit, hrest⟩ := bind_eq_ok.mp h
        obtain ⟨hgrow, hround⟩ := checkedRound_worklist hS hvisit
        refine bind_eq_ok.mpr ⟨_, hround, checkedExplore_worklist ?_ hrest⟩
        have hlt : e.rows.length < e.found.size := (List.getElem?_eq_some_iff.mp hS).1
        rw [List.length_append]
        exact Nat.le_trans hlt hgrow

/-- When the rounds are over every set is given with its row. -/
theorem mapM_entryUnder_worklist {e : Exploration}
    (hlen : e.rows.length = e.found.identities.length) :
    (e.worklist.found.identities.zipIdx.mapM fun p => do
      return Dfa.givenPair (p.1, ← entryUnder e.worklist.rows p.2)) = .ok (givenStates e) := by
  have hrow : ∀ p ∈ e.found.identities.zipIdx,
      (do return Dfa.givenPair (p.1, ← entryUnder e.worklist.rows p.2)) =
        Except.ok (ε := Error) (Dfa.givenPair (p.1, e.rows.getD p.2 [])) := by
    intro p hp
    have hlt : p.2 < e.rows.length :=
      hlen ▸ (List.getElem?_eq_some_iff.mp (List.mem_zipIdx_iff_getElem?.mp hp)).1
    refine bind_eq_ok.mpr ⟨_, entryUnder_eq_ok ((lookup_underPlaces _ _).trans ?_), rfl⟩
    simp [hlt]
  rw [givenStates_eq, found]
  refine (mapM_eq_ok_map hrow).trans (congrArg Except.ok ?_)
  refine List.ext_getElem (by simp [hlen]) fun i hi _ => ?_
  have hlt : i < e.rows.length := by simpa [hlen] using hi
  simp [hlt]

/-- **No lookup is refused in the subset construction, and no check of its states fails.** -/
theorem checkedToDfa_eq (N : Nfa) : N.checkedToDfa = N.toDfa .null := by
  obtain ⟨e, hrun, -, hlen⟩ := N.exists_exploration
  obtain ⟨D, hD, -⟩ := N.exists_toDfa
  have hstates : Dfa.ofStates (givenStates e) N.alphabet N.accepting = .ok D := by
    rw [toDfa, hrun] at hD
    exact hD
  have hexplore : N.checkedExplore (N.subsetBound + 1)
      (Exploration.worklist ⟨(IdentityTable.empty.insert N.startSet).2.2, []⟩) = .ok e.worklist :=
    checkedExplore_worklist (Nat.zero_le _) hrun
  rw [hD]
  exact bind_eq_ok.mpr ⟨_, N.checkedStart_eq, bind_eq_ok.mpr ⟨_, hexplore,
    bind_eq_ok.mpr ⟨_, mapM_entryUnder_worklist hlen, hstates⟩⟩⟩

end Nfa

end FiniteAutomata
