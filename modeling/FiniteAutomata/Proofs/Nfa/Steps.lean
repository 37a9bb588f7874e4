import FiniteAutomata.Nfa.MoveSets
import FiniteAutomata.Proofs.Nfa.MoveTable

/-!
# Proofs/Nfa/Steps — the transitions of a table take its steps, each as often as it does

A step leads from a state to another on one symbol or on nothing. One more entry adds a step to each
of its targets to those of the edges, whichever edges they fall to (`MoveTable.steps_addEntry`), so
the steps of the edges are those of the entries up to their order. No two edges with inputs lead
from the same state to the same target (`MoveTable.Edge.Apart`), for then the inputs are put
together. Both is then true of the transitions (`MoveTable.exists_split_of_transitions`).
-/

namespace FiniteAutomata

/-- From where, where to and on what the transition leads, once for each of its names. -/
def Transition.steps (t : Transition) : List (State × State × Symbol) :=
  t.names.map fun a => (t.source, t.target, a)

namespace MoveTable

/-! ## Steps -/

variable {es : List Edge} {edges edges' : Edges} {table : List ((Value × Value) × Value)}
  {key : Value × Value} {ys : List State}

/-- From where, where to and on what an edge leads, once for each of its inputs. -/
def Edge.steps (e : Edge) : List (Option Int × State × Value) :=
  e.inputs.map fun v => (e.source.toInt?, e.target, v)

/-- **The steps of all edges**, those on nothing under the sign of the empty move. -/
def Edges.steps (edges : Edges) : List (Option Int × State × Value) :=
  edges.labelled.flatMap Edge.steps ++
    edges.empty.map fun e => (e.source.toInt?, e.target, .text epsilonSign)

theorem Edges.mem_steps_text {k : Option Int} {y : State} {b : Symbol} (hb : b ≠ epsilonSign) :
    (k, y, .text b) ∈ edges.steps ↔
      ∃ e ∈ edges.labelled, e.source.toInt? = k ∧ e.target = y ∧ .text b ∈ e.inputs := by
  have hempty : (k, y, Value.text b) ∉
      edges.empty.map fun e => (e.source.toInt?, e.target, Value.text epsilonSign) := by
    simp [hb.symm]
  rw [Edges.steps, List.mem_append, or_iff_left hempty, List.mem_flatMap]
  refine exists_congr fun e => and_congr_right fun _ => ?_
  simp only [Edge.steps, List.mem_map, Prod.mk.injEq]
  constructor
  · rintro ⟨_, hv, rfl, rfl, rfl⟩
    exact ⟨rfl, rfl, hv⟩
  · rintro ⟨rfl, rfl, hv⟩
    exact ⟨_, hv, rfl, rfl, rfl⟩

/-- The steps from the state of a key on its label. -/
def stepsUnder (key : Value × Value) (ys : List State) : List (Option Int × State × Value) :=
  ys.map fun y => (key.1.toInt?, y, key.2)

theorem steps_addInput (s : Value) (t : State) (a : Value) (es : List Edge) :
    ((addInput s t a es).flatMap Edge.steps).Perm
      ((s.toInt?, t, a) :: es.flatMap Edge.steps) := by
  induction es with
  | nil => exact .refl _
  | cons e es ih =>
    rw [addInput]
    split
    · rename_i h
      obtain ⟨hs, ht⟩ := Bool.and_eq_true _ _ |>.mp h
      rw [← Value.toInt?_eq_of_same hs, ← beq_iff_eq.mp ht]
      simp only [List.flatMap_cons, Edge.steps, List.map_append, List.append_assoc, List.map_cons,
        List.map_nil, List.cons_append, List.nil_append]
      exact List.perm_middle
    · rw [List.flatMap_cons, List.flatMap_cons]
      exact (ih.append_left _).trans List.perm_middle

theorem steps_foldl_addInput (s a : Value) (ys : List State) (es : List Edge) :
    ((ys.foldl (fun es t => addInput s t a es) es).flatMap Edge.steps).Perm
      (stepsUnder (s, a) ys ++ es.flatMap Edge.steps) := by
  induction ys generalizing es with
  | nil => exact .refl _
  | cons y ys ih =>
    rw [List.foldl_cons]
    exact (ih _).trans (((steps_addInput s y a es).append_left _).trans List.perm_middle)

/-- **What one more entry adds**: a step to each of its targets. -/
theorem steps_addEntry (edges : Edges) (key : Value × Value) (ys : List State) :
    (addEntry edges key ys).steps.Perm (stepsUnder key ys ++ edges.steps) := by
  rw [addEntry]
  split
  · rename_i hkey
    have he : key.2 = .text epsilonSign := Value.same_text.mp hkey
    have hnew : (ys.map fun t => (⟨key.1, t, []⟩ : Edge)).map
        (fun e => (e.source.toInt?, e.target, Value.text epsilonSign)) = stepsUnder key ys := by
      rw [stepsUnder, he, List.map_map]
      rfl
    rw [Edges.steps, List.map_append, hnew, ← List.append_assoc]
    exact List.perm_append_comm
  · rw [Edges.steps, Edges.steps, ← List.append_assoc]
    exact (steps_foldl_addInput _ _ _ _).append_right _

theorem exists_targetsOf_of_addEntries {e : (Value × Value) × Value}
    (h : addEntries edges table = .ok edges') (he : e ∈ table) :
    ∃ ys, targetsOf e.2 = .ok ys := by
  induction table generalizing edges with
  | nil => exact absurd he List.not_mem_nil
  | cons f table ih =>
    obtain ⟨ys, hys, h⟩ := addEntries_cons_eq_ok.mp h
    rcases List.mem_cons.mp he with rfl | he
    · exact ⟨ys, hys⟩
    · exact ih h he

/-- The steps of an entry, if its targets are integers. -/
def entrySteps (e : (Value × Value) × Value) : List (Option Int × State × Value) :=
  match targetsOf e.2 with
  | .ok ys => stepsUnder e.1 ys
  | .error _ => []

theorem steps_addEntries (h : addEntries edges table = .ok edges') :
    edges'.steps.Perm (table.flatMap entrySteps ++ edges.steps) := by
  induction table generalizing edges with
  | nil => exact Except.ok.inj h ▸ .refl _
  | cons e table ih =>
    obtain ⟨ys, hys, h⟩ := addEntries_cons_eq_ok.mp h
    have hsteps : entrySteps e = stepsUnder e.1 ys := by rw [entrySteps, hys]
    calc
      edges'.steps.Perm (table.flatMap entrySteps ++ (addEntry edges e.1 ys).steps) := ih h
      List.Perm _ (table.flatMap entrySteps ++ (entrySteps e ++ edges.steps)) :=
        hsteps ▸ (steps_addEntry edges e.1 ys).append_left _
      List.Perm _ ((e :: table).flatMap entrySteps ++ edges.steps) := by
        rw [List.flatMap_cons, ← List.append_assoc]
        exact List.perm_append_comm.append_right _

/-! ## Edges apart -/

/-- The two edges do not lead from the same value to the same state. -/
def Edge.Apart (e f : Edge) : Prop := ¬ (e.source.same f.source = true ∧ e.target = f.target)

theorem pairwise_addInput {s : Value} {t : State} {a : Value} (h : es.Pairwise Edge.Apart) :
    (addInput s t a es).Pairwise Edge.Apart := by
  induction es with
  | nil => exact List.pairwise_singleton _ _
  | cons e es ih =>
    obtain ⟨he, hes⟩ := List.pairwise_cons.mp h
    rw [addInput]
    split
    · exact List.pairwise_cons.mpr ⟨he, hes⟩
    · rename_i hne
      have hnew : Edge.Apart e ⟨s, t, [a]⟩ := fun h => hne (by simp [h.1, h.2])
      refine List.pairwise_cons.mpr ⟨?_, ih hes⟩
      exact forall_mem_addInput (P := e.Apart) hnew (fun _ h => h) he

theorem pairwise_addEntry (h : edges.labelled.Pairwise Edge.Apart) :
    (addEntry edges key ys).labelled.Pairwise Edge.Apart := by
  rw [addEntry]
  split
  · exact h
  · exact List.foldlRecOn (motive := List.Pairwise Edge.Apart) _ _ h fun _ h _ _ =>
      pairwise_addInput h

theorem pairwise_addEntries (h : edges.labelled.Pairwise Edge.Apart)
    (hadd : addEntries edges table = .ok edges') : edges'.labelled.Pairwise Edge.Apart := by
  induction table generalizing edges with
  | nil => exact Except.ok.inj hadd ▸ h
  | cons e table ih =>
    obtain ⟨_, _, hadd⟩ := addEntries_cons_eq_ok.mp hadd
    exact ih (pairwise_addEntry h) hadd

/-! ## The transitions of a table -/

variable {ts : List Transition}

theorem Edge.steps_ofTransition {t : Transition} (h : t.inputs ≠ []) :
    (Edge.ofTransition t).steps =
      t.steps.map fun p => (some p.1, p.2.1, Value.text p.2.2) := by
  have hnames : t.names = t.inputs := if_neg (by simpa [Transition.isEpsilon] using h)
  simp [Edge.steps, Edge.ofTransition, Transition.steps, hnames, Value.toInt?]

/-- **The transitions of a table** are first those with inputs, no two of them between the same
states, then the others; together they make the steps of the entries. -/
theorem exists_split_of_transitions (h : transitions table = .ok ts) :
    ∃ ts₁ ts₂, ts = ts₁ ++ ts₂ ∧ (∀ t ∈ ts₁, t.inputs ≠ []) ∧ (∀ t ∈ ts₂, t.inputs = []) ∧
      (ts₁.map fun t => (t.source, t.target)).Nodup ∧
      ((ts.flatMap Transition.steps).map fun p => (some p.1, p.2.1, Value.text p.2.2)).Perm
        (table.flatMap entrySteps) := by
  obtain ⟨edges, hedges, hts⟩ := transitions_eq_ok.mp h
  have hover := over_of_addEntries hedges
  have hsteps := steps_addEntries hedges
  have hapart := pairwise_addEntries .nil hedges
  obtain ⟨labelled, empty⟩ := edges
  obtain ⟨ts₁, ts₂, rfl, rfl, rfl⟩ := List.map_eq_append_iff.mp hts.symm
  have h₁ : ∀ t ∈ ts₁, t.inputs ≠ [] := fun t ht hnil =>
    (hover.labelled _ (List.mem_map_of_mem ht)).inputs_ne (by simp [Edge.ofTransition, hnil])
  have h₂ : ∀ t ∈ ts₂, t.inputs = [] := fun t ht =>
    List.map_eq_nil_iff.mp (hover.empty _ (List.mem_map_of_mem ht)).2
  refine ⟨ts₁, ts₂, rfl, h₁, h₂, ?_, ?_⟩
  · rw [List.pairwise_map] at hapart
    refine List.pairwise_map.mpr (hapart.imp fun {t u} h heq => h ?_)
    obtain ⟨hs, ht⟩ := Prod.mk.inj heq
    exact ⟨Value.same_int_iff.mpr hs, ht⟩
  · refine .trans (.of_eq ?_) (hsteps.trans (.of_eq (List.append_nil _)))
    rw [List.flatMap_append, List.map_append, Edges.steps, List.flatMap_map, List.map_map,
      List.map_flatMap, List.map_flatMap]
    congr 1
    · exact List.flatMap_congr fun t ht => (Edge.steps_ofTransition (h₁ t ht)).symm
    · refine (List.flatMap_congr fun t ht => ?_).trans List.map_eq_flatMap.symm
      have hnames : t.names = [epsilonSign] := if_pos (by simp [Transition.isEpsilon, h₂ t ht])
      simp [Transition.steps, hnames, Edge.ofTransition, Value.toInt?]

/-- The targets of each entry are integers. -/
theorem exists_targetsOf {e : (Value × Value) × Value} (h : transitions table = .ok ts)
    (he : e ∈ table) : ∃ ys, targetsOf e.2 = .ok ys := by
  obtain ⟨edges, hedges, -⟩ := transitions_eq_ok.mp h
  exact exists_targetsOf_of_addEntries hedges he

end MoveTable

end FiniteAutomata
