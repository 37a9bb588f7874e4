import FiniteAutomata.Nfa.MoveSets
import FiniteAutomata.Proofs.Nfa.MoveTable
import FiniteAutomata.Proofs.Nfa.Query
import Mathlib.Data.List.Nodup

/-!
# Proofs/Nfa/MoveSets — the sets of targets are what an automaton is asked for

Each transition adds its target to the sets under its names, so these lead where the listed
transitions do (`MoveSets.leads_ofTransitions_iff`). There is one set for each key
(`MoveSets.nodup_ofTransitions`), and looking it up gives what the automaton answers
(`Nfa.query_eq_targets`).
-/

namespace FiniteAutomata

/-- What holds after each step if it held before, or for some cause in the step, holds after a fold
if it held before or for some cause in the list. -/
theorem foldl_iff {α β : Type} {f : β → α → β} {P : β → Prop} {Q : α → Prop}
    (h : ∀ b a, P (f b a) ↔ P b ∨ Q a) (l : List α) (b : β) :
    P (l.foldl f b) ↔ P b ∨ ∃ a ∈ l, Q a := by
  induction l generalizing b with
  | nil => simp
  | cons a l ih => rw [List.foldl_cons, ih, h, List.exists_mem_cons_iff, or_assoc]

/-- A transition is named by what it reads. -/
theorem Transition.mem_names {t : Transition} {a : Symbol} :
    a ∈ t.names ↔ t.Reads (.ofText a) := by
  rw [MoveTable.reads_ofText_iff]
  obtain ⟨source, target, inputs, hsign⟩ := t
  cases inputs with
  | nil => by_cases ha : a = epsilonSign <;> simp [names, isEpsilon, ha]
  | cons b bs =>
    by_cases ha : a = epsilonSign
    · subst ha
      simpa [names, isEpsilon] using hsign
    · simp [names, isEpsilon, ha]

namespace MoveSets

variable {sets : MoveSets} {key k : State × Symbol} {x y : State} {t : Transition}

/-- **Some set under the key has the state.** -/
def Leads (sets : MoveSets) (k : State × Symbol) (y : State) : Prop :=
  ∃ e ∈ sets, e.1 = k ∧ y ∈ e.2

/-- **One more target under a key is all that is added.** -/
theorem leads_add_iff : (sets.add key x).Leads k y ↔ sets.Leads k y ∨ key = k ∧ y = x := by
  unfold Leads
  induction sets with
  | nil => simp [add]
  | cons e es ih =>
    rw [add]
    split
    · rename_i he
      subst he
      simp only [List.exists_mem_cons_iff, StateSet.mem_insert, and_or_left, or_assoc, or_comm]
    · rw [List.exists_mem_cons_iff, ih, List.exists_mem_cons_iff, or_assoc]

theorem leads_addTransition_iff : (sets.addTransition t).Leads k y ↔
    sets.Leads k y ∨ k.2 ∈ t.names ∧ t.source = k.1 ∧ t.target = y := by
  have hstep : ∀ (sets : MoveSets) (a : Symbol), (sets.add (t.source, a) t.target).Leads k y ↔
      sets.Leads k y ∨ (t.source, a) = k ∧ y = t.target := fun _ _ => leads_add_iff
  rw [addTransition, foldl_iff (P := (Leads · k y)) hstep]
  refine or_congr_right ⟨?_, ?_⟩
  · rintro ⟨a, ha, rfl, rfl⟩
    exact ⟨ha, rfl, rfl⟩
  · rintro ⟨ha, hs, rfl⟩
    exact ⟨k.2, ha, Prod.ext hs rfl, rfl⟩

/-- **The sets of targets are those of the transitions.** -/
theorem leads_ofTransitions_iff {ts : List Transition} {s : State} {a : Symbol} :
    (ofTransitions ts).Leads (s, a) y ↔
      ∃ t ∈ ts, t.Reads (.ofText a) ∧ t.source = s ∧ t.target = y := by
  have hstep : ∀ (sets : MoveSets) (t : Transition), (sets.addTransition t).Leads (s, a) y ↔
      sets.Leads (s, a) y ∨ a ∈ t.names ∧ t.source = s ∧ t.target = y :=
    fun _ _ => leads_addTransition_iff
  rw [ofTransitions, foldl_iff (P := (Leads · (s, a) y)) hstep]
  simp [Leads, Transition.mem_names]

/-! ## Looking sets up -/

/-- One more target adds its key, if there is no set under it. -/
theorem keys_add : (sets.add key x).map (·.1) =
    if key ∈ sets.map (·.1) then sets.map (·.1) else sets.map (·.1) ++ [key] := by
  induction sets with
  | nil => rfl
  | cons e es ih =>
    rw [add]
    by_cases he : e.1 = key
    · simp [he]
    · rw [if_neg he, List.map_cons, ih, List.map_cons]
      by_cases hes : key ∈ es.map (·.1)
      · rw [if_pos hes, if_pos (List.mem_cons_of_mem _ hes)]
      · rw [if_neg hes, if_neg (List.not_mem_cons_of_ne_of_not_mem (Ne.symm he) hes),
          List.cons_append]

theorem nodup_add (h : (sets.map (·.1)).Nodup) : ((sets.add key x).map (·.1)).Nodup := by
  rw [keys_add]
  split
  · exact h
  · rename_i hkey
    simpa only [List.concat_eq_append] using h.concat hkey

theorem nodup_ofTransitions (ts : List Transition) :
    ((ofTransitions ts).map (·.1)).Nodup := by
  refine List.foldlRecOn (motive := fun sets : MoveSets => (sets.map (·.1)).Nodup) ts _ ?_ ?_
  · exact .nil
  · intro sets hsets t _
    exact List.foldlRecOn (motive := fun sets : MoveSets => (sets.map (·.1)).Nodup) _ _ hsets
      fun _ h _ _ => nodup_add h

/-- **What is looked up is what some set holds**, if no two sets are under the same key. -/
theorem mem_targets_iff (h : (sets.map (·.1)).Nodup) : y ∈ sets.targets k ↔ sets.Leads k y := by
  unfold targets Leads
  induction sets with
  | nil => simp
  | cons e es ih =>
    obtain ⟨he, hes⟩ := List.nodup_cons.mp h
    rw [List.exists_mem_cons_iff, List.lookup_cons]
    by_cases hk : k = e.1
    · subst hk
      have hno : ¬ ∃ e' ∈ es, e'.1 = e.1 ∧ y ∈ e'.2 := fun ⟨e', he', heq, _⟩ =>
        he (List.mem_map.mpr ⟨e', he', heq⟩)
      simp [hno]
    · rw [beq_false_of_ne hk, ih hes]
      exact (or_iff_right fun h => hk h.1.symm).symm

end MoveSets

/-- **What a state leads to is what is looked up** in the sets of targets. -/
theorem Nfa.query_eq_targets (N : Nfa) (s : State) (a : Symbol) :
    N.query s (.ofText a) = (MoveSets.ofTransitions N.transitions).targets (s, a) := by
  refine StateSet.ext fun y => ?_
  rw [mem_query, MoveSets.mem_targets_iff (MoveSets.nodup_ofTransitions _),
    MoveSets.leads_ofTransitions_iff]

end FiniteAutomata
