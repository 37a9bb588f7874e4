import FiniteAutomata.Proofs.Nfa.Closure
import FiniteAutomata.Proofs.Nfa.Regrouping

/-!
# Proofs/Nfa/Fitting — which edges are transitions of an automaton

An edge is a transition if its source and target are states and its inputs symbols
(`MoveTable.Edge.Fits`). One more entry brings such edges alone if its targets are in range, its
symbol is one of the alphabet or the sign of the empty move, and its state is one; but the state is
not looked at where an edge from the same value to the same target is there already, for then the
symbol is put to the inputs of that one (`MoveTable.Edges.fit_addEntry_iff`).
-/

namespace FiniteAutomata

namespace MoveTable

/-! ## Edges that become transitions -/

variable {e : Edge} {es : List Edge} {edges : Edges} {s a : Value} {b : Symbol} {n : Nat}
  {A : Alphabet} {y : State} {ys : List State}

/-- **The edge is a transition of an automaton** with `n` states over `A`, or the beginning of
one. -/
structure Edge.Fits (n : Nat) (A : Alphabet) (e : Edge) : Prop where
  source : e.source.IsState n
  target : InRange n e.target
  inputs : ∀ v ∈ e.inputs, ∃ b ∈ A, v = .text b

/-- An edge that fits is a transition. -/
theorem Edge.Fits.exists_eq (h : e.Fits n A) : ∃ t, e = Edge.ofTransition t := by
  obtain ⟨source, target, inputs⟩ := e
  obtain ⟨⟨k, rfl, -⟩, -, hinputs⟩ := h
  obtain ⟨as, rfl⟩ := forall_mem_eq_map.mp fun v hv => (hinputs v hv).imp fun _ => And.right
  refine ⟨⟨k, target, as, fun hsign => ?_⟩, rfl⟩
  obtain ⟨b, hb, heq⟩ := hinputs _ (List.mem_map_of_mem hsign)
  exact A.epsilon_notMem (Value.text.inj heq ▸ hb)

/-- **A transition fits as an edge exactly if it does.** -/
theorem Edge.fits_ofTransition {t : Transition} :
    (Edge.ofTransition t).Fits n A ↔ t.Fits n A := by
  constructor
  · rintro ⟨⟨_, hsource, hrange⟩, htarget, hinputs⟩
    refine ⟨Value.int.inj hsource ▸ hrange, htarget, fun b hb => ?_⟩
    obtain ⟨c, hc, heq⟩ := hinputs _ (List.mem_map_of_mem hb)
    exact Value.text.inj heq ▸ hc
  · rintro ⟨hsource, htarget, hinputs⟩
    refine ⟨⟨t.source, rfl, hsource⟩, htarget, List.forall_mem_map.mpr fun b hb => ?_⟩
    exact ⟨b, hinputs b hb, rfl⟩

theorem Edge.fits_more : Edge.Fits n A { e with inputs := e.inputs ++ [.text b] } ↔
    e.Fits n A ∧ b ∈ A := by
  constructor
  · rintro ⟨hsource, htarget, hinputs⟩
    obtain ⟨hinputs, hlast⟩ := List.forall_mem_append.mp hinputs
    obtain ⟨c, hc, heq⟩ := hlast _ (List.mem_singleton_self _)
    exact ⟨⟨hsource, htarget, hinputs⟩, Value.text.inj heq ▸ hc⟩
  · rintro ⟨⟨hsource, htarget, hinputs⟩, hb⟩
    refine ⟨hsource, htarget, List.forall_mem_append.mpr ⟨hinputs, ?_⟩⟩
    exact List.forall_mem_singleton.mpr ⟨b, hb, rfl⟩

/-- Some edge leads from the same value to the state. -/
def LeadsFrom (es : List Edge) (s : Value) (y : State) : Prop :=
  ∃ e ∈ es, e.source.same s = true ∧ e.target = y

/-- **One more input is let in if it is a symbol, and its edge is there or begins at a state.** -/
theorem forall_fits_addInput_iff : (∀ e ∈ addInput s y (.text b) es, e.Fits n A) ↔
    (∀ e ∈ es, e.Fits n A) ∧ InRange n y ∧ b ∈ A ∧ (s.IsState n ∨ LeadsFrom es s y) := by
  induction es with
  | nil =>
    rw [addInput, List.forall_mem_singleton]
    constructor
    · rintro ⟨hs, hy, hinputs⟩
      obtain ⟨c, hc, heq⟩ := hinputs _ (List.mem_singleton_self _)
      exact ⟨List.forall_mem_nil _, hy, Value.text.inj heq ▸ hc, .inl hs⟩
    · rintro ⟨-, hy, hb, hs | ⟨_, h, -⟩⟩
      · exact ⟨hs, hy, List.forall_mem_singleton.mpr ⟨b, hb, rfl⟩⟩
      · exact absurd h List.not_mem_nil
  | cons e es ih =>
    rw [addInput]
    split
    · rename_i h
      obtain ⟨hs, ht⟩ := Bool.and_eq_true _ _ |>.mp h
      have ht := beq_iff_eq.mp ht
      rw [List.forall_mem_cons, List.forall_mem_cons, Edge.fits_more]
      constructor
      · rintro ⟨⟨he, hb⟩, hes⟩
        exact ⟨⟨he, hes⟩, ht ▸ he.target, hb, .inr ⟨e, List.mem_cons_self, hs, ht⟩⟩
      · rintro ⟨⟨he, hes⟩, -, hb, -⟩
        exact ⟨⟨he, hb⟩, hes⟩
    · rename_i h
      have hleads : LeadsFrom (e :: es) s y ↔ LeadsFrom es s y := by
        refine List.exists_mem_cons_iff _ _ _ |>.trans (or_iff_right fun hes => h ?_)
        simp [hes.1, hes.2]
      rw [List.forall_mem_cons, List.forall_mem_cons, ih, hleads, and_assoc]

theorem leadsFrom_addInput_of_ne {z : State} (h : y ≠ z) :
    LeadsFrom (addInput s y a es) s z ↔ LeadsFrom es s z := by
  unfold LeadsFrom
  induction es with
  | nil => simp [addInput, h]
  | cons e es ih =>
    rw [addInput]
    split
    · rw [List.exists_mem_cons_iff, List.exists_mem_cons_iff]
    · rw [List.exists_mem_cons_iff, List.exists_mem_cons_iff, ih]

theorem forall_fits_foldl_addInput_iff (hys : ys.Nodup) :
    (∀ e ∈ ys.foldl (fun es y => addInput s y (.text b) es) es, e.Fits n A) ↔
      (∀ e ∈ es, e.Fits n A) ∧
        ∀ y ∈ ys, InRange n y ∧ b ∈ A ∧ (s.IsState n ∨ LeadsFrom es s y) := by
  induction ys generalizing es with
  | nil => simp
  | cons y ys ih =>
    obtain ⟨hy, hys⟩ := List.nodup_cons.mp hys
    rw [List.foldl_cons, ih hys, forall_fits_addInput_iff, List.forall_mem_cons, and_assoc]
    refine and_congr_right fun _ => and_congr_right fun _ => forall₂_congr fun z hz => ?_
    have hne : y ≠ z := fun heq => hy (heq.symm ▸ hz)
    rw [leadsFrom_addInput_of_ne hne]

/-- **All edges fit.** -/
def Edges.Fit (n : Nat) (A : Alphabet) (edges : Edges) : Prop :=
  ∀ e ∈ edges.labelled ++ edges.empty, e.Fits n A

/-- **One more entry is let in** if its targets are in range, its symbol is one of the alphabet or
the sign of the empty move, and its state is one, which need not be so where an edge is there. -/
theorem Edges.fit_addEntry_iff (hys : ys.Nodup) : (addEntry edges (s, .text b) ys).Fit n A ↔
    edges.Fit n A ∧ ∀ y ∈ ys, InRange n y ∧ (b = epsilonSign ∨ b ∈ A) ∧
      (s.IsState n ∨ b ≠ epsilonSign ∧ LeadsFrom edges.labelled s y) := by
  unfold Fit addEntry
  split
  · rename_i hkey
    obtain rfl := Value.text.inj (Value.same_text.mp hkey)
    rw [← List.append_assoc, List.forall_mem_append, List.forall_mem_map]
    refine and_congr_right fun _ => forall₂_congr fun y hy => ?_
    constructor
    · rintro ⟨hs, hy, -⟩
      exact ⟨hy, .inl rfl, .inl hs⟩
    · rintro ⟨hy, -, hs | ⟨hne, -⟩⟩
      · exact ⟨hs, hy, List.forall_mem_nil _⟩
      · exact absurd rfl hne
  · rename_i hkey
    have hne : b ≠ epsilonSign := fun heq => hkey (Value.same_text.mpr (congrArg _ heq))
    rw [List.forall_mem_append, forall_fits_foldl_addInput_iff hys, List.forall_mem_append,
      and_right_comm]
    simp only [hne, false_or, ne_eq, not_false_eq_true, true_and]

end MoveTable

end FiniteAutomata
