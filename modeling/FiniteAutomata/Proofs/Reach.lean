import FiniteAutomata.Nfa.Path
import Mathlib.Data.List.Induction

/-!
# Proofs/Reach — the states to which a word leads

`Nfa.reach` is the set that the simulation holds after a word. It is the set of the states to which
a path that spells the word leads from the start state (`Nfa.mem_reach`), and a word of symbols of
the alphabet is accepted exactly when that set has an accepting member (`Nfa.accepts_iff_reach`):
the early exit on an empty set is sound because an empty set stays empty. So a word is accepted
exactly when a path that spells it leads to an accepting state (`Nfa.accepts_iff_path`).
-/

namespace FiniteAutomata

namespace Nfa

variable {N : Nfa}

/-- **The set is what a word leads to**: the targets of the paths from the start state that spell
it. -/
def Reaches (N : Nfa) (w : List Symbol) (S : StateSet) : Prop := ∀ x, x ∈ S ↔ N.Path N.start w x

/-- A word leads to one set only. -/
theorem Reaches.unique {w : List Symbol} {S T : StateSet} (hS : N.Reaches w S)
    (hT : N.Reaches w T) : S = T :=
  StateSet.ext fun x => (hS x).trans (hT x).symm

/-! ## The simulation after a word -/

/-- The closed set of current states after a word. -/
def reach (N : Nfa) (w : List Symbol) : StateSet := w.foldl N.step N.startSet

@[simp] theorem reach_nil : N.reach [] = N.startSet := rfl

@[simp] theorem reach_concat (w : List Symbol) (a : Symbol) :
    N.reach (w ++ [a]) = N.step (N.reach w) a := by
  simp [reach]

theorem isClosed_reach (w : List Symbol) : N.IsClosed (N.reach w) := by
  rcases List.eq_nil_or_concat w with rfl | ⟨v, a, rfl⟩
  · exact isClosed_closure _
  · rw [List.concat_eq_append, reach_concat]
    exact isClosed_closure _

/-- A path that spells a word and a symbol reads the symbol last. -/
theorem Path.concat_iff {x z : State} {w : List Symbol} {a : Symbol} :
    N.Path x (w ++ [a]) z ↔ ∃ y, N.Path x w y ∧ N.Path y [a] z :=
  ⟨Path.exists_of_append, fun ⟨_, hw, ha⟩ => hw.append ha⟩

/-- **The simulation holds the states to which paths lead.** -/
theorem mem_reach {w : List Symbol} {x : State} : x ∈ N.reach w ↔ N.Path N.start w x := by
  induction w using List.reverseRecOn generalizing x with
  | nil => simp [startSet, mem_closure]
  | append_singleton w a ih =>
    rw [reach_concat, mem_step (isClosed_reach w), Path.concat_iff]
    exact exists_congr fun s => and_congr_left' ih

theorem reaches_reach (w : List Symbol) : N.Reaches w (N.reach w) := fun _ => mem_reach

theorem reaches_iff {w : List Symbol} {S : StateSet} : N.Reaches w S ↔ S = N.reach w :=
  ⟨fun h => h.unique (reaches_reach w), fun h => h ▸ reaches_reach w⟩

/-! ## Acceptance -/

theorem step_empty (a : Symbol) : N.step ∅ a = ∅ := by
  refine StateSet.ext fun x => ?_
  have hclosed : N.IsClosed ∅ := fun t _ _ ht => absurd ht (StateSet.notMem_empty _)
  simp [mem_step hclosed]

/-- An empty set stays empty. -/
theorem foldl_step_empty (w : List Symbol) : w.foldl N.step ∅ = ∅ := by
  induction w with
  | nil => rfl
  | cons a w ih => rw [List.foldl_cons, step_empty, ih]

theorem acceptsFrom_cons (S : StateSet) (a : Symbol) (w : List Symbol) :
    N.acceptsFrom S (a :: w) = if a ∈ N.alphabet then
      (if (N.step S a).isEmpty then false else N.acceptsFrom (N.step S a) w) else false := rfl

theorem acceptsFrom_eq {S : StateSet} {w : List Symbol} (hw : ∀ a ∈ w, a ∈ N.alphabet) :
    N.acceptsFrom S w = (w.foldl N.step S).meets N.accepting := by
  induction w generalizing S with
  | nil => rfl
  | cons a w ih =>
    obtain ⟨ha, hw⟩ := List.forall_mem_cons.mp hw
    rw [acceptsFrom_cons, if_pos ha, List.foldl_cons]
    split
    · rename_i hempty
      rw [StateSet.isEmpty_iff.mp hempty, foldl_step_empty]
      rfl
    · exact ih hw

/-- A symbol outside the alphabet rejects, wherever it stands. -/
theorem mem_alphabet_of_acceptsFrom {S : StateSet} {w : List Symbol}
    (h : N.acceptsFrom S w = true) : ∀ a ∈ w, a ∈ N.alphabet := by
  induction w generalizing S with
  | nil => simp
  | cons a w ih =>
    rw [acceptsFrom_cons] at h
    split at h
    · rename_i ha
      split at h
      · exact absurd h Bool.false_ne_true
      · exact List.forall_mem_cons.mpr ⟨ha, ih h⟩
    · exact absurd h Bool.false_ne_true

/-- **A word is accepted when its symbols are in the alphabet and its set has an accepting
member.** -/
theorem accepts_iff_reach {w : List Symbol} :
    N.accepts w = true ↔ (∀ a ∈ w, a ∈ N.alphabet) ∧ (N.reach w).meets N.accepting = true := by
  constructor
  · intro h
    have hw := mem_alphabet_of_acceptsFrom h
    exact ⟨hw, acceptsFrom_eq hw ▸ h⟩
  · rintro ⟨hw, h⟩
    exact (acceptsFrom_eq hw).trans h

/-! ## Accepting paths -/

/-- The word ends in an accepting state on some path. -/
theorem meets_reach_iff {w : List Symbol} : (N.reach w).meets N.accepting = true ↔
    ∃ x ∈ N.accepting, N.Path N.start w x := by
  simp only [StateSet.meets_iff, mem_reach]
  exact exists_congr fun x => and_comm

/-- Paths spell words over the alphabet, since listed transitions have no other inputs. -/
theorem Path.mem_alphabet {x y : State} {w : List Symbol} (h : N.Path x w y) :
    ∀ a ∈ w, a ∈ N.alphabet := by
  induction h with
  | done => exact List.forall_mem_nil _
  | skip _ _ _ ih => exact ih
  | read ht hr _ ih => exact List.forall_mem_cons.mpr ⟨(N.transitions_fit _ ht).inputs_mem _ hr, ih⟩

/-- **A word is accepted exactly when a path through the listed transitions spells it** from the
start state to an accepting one; no word with a symbol outside the alphabet is. -/
theorem accepts_iff_path (N : Nfa) (w : List Symbol) :
    (N.accepts w = true ↔ ∃ x ∈ N.accepting, N.Path N.start w x) ∧
      ((∃ a ∈ w, a ∉ N.alphabet) → N.accepts w = false) := by
  constructor
  · rw [accepts_iff_reach, meets_reach_iff, and_iff_right_iff_imp]
    rintro ⟨x, -, hpath⟩
    exact hpath.mem_alphabet
  · rintro ⟨a, ha, hout⟩
    refine Bool.eq_false_iff.mpr fun h => hout ?_
    exact mem_alphabet_of_acceptsFrom h a ha

end Nfa

end FiniteAutomata
