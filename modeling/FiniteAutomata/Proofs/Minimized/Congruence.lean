import FiniteAutomata.Proofs.Minimized.Quotient

/-!
# Proofs/Minimized/Congruence — minimization looks at moves and acceptance only

Two automata whose states have the same moves and accept alike, number by number, have the same
minimized form (`Dfa.Parallel.minimize_eq`), whatever their states stand for. Classes are given out
in the order of the numbers, so the classes of the first numbers depend only on which of these are
alike (`Dfa.classOf_congr`), whatever comes after them.
-/

namespace FiniteAutomata

namespace Dfa

/-! ## Classes -/

namespace Classes

variable {apart far : Nat → Nat → Bool} {m n : Nat}

/-- The classes of one number more. -/
theorem below_succ : below apart (n + 1) = place apart (below apart n) n := by
  rw [below, List.range_succ, List.foldl_append]
  rfl

theorem length_classes_below : (below apart n).classes.length = n := by
  induction n with
  | zero => rfl
  | succ n ih =>
    rw [below_succ, place]
    cases (below apart n).leaders.findIdx? fun l => !apart l n <;> simp [ih]

/-- A number keeps its class when others are placed after it. -/
theorem isPrefix_classes_below (hmn : m ≤ n) :
    (below apart m).classes <+: (below apart n).classes := by
  induction n, hmn using Nat.le_induction with
  | base => exact List.prefix_refl _
  | succ n _ ih =>
    refine ih.trans ?_
    rw [below_succ, place]
    cases (below apart n).leaders.findIdx? fun l => !apart l n <;> exact List.prefix_append ..

/-- **Classes depend on which of their numbers are apart**, and on no others. -/
theorem below_congr (h : ∀ i < n, ∀ j < n, apart i j = far i j) :
    below apart n = below far n ∧ ∀ l ∈ (below apart n).leaders, l < n := by
  induction n with
  | zero => exact ⟨rfl, fun l hl => nomatch hl⟩
  | succ n ih =>
    obtain ⟨heq, hlt⟩ := ih fun i hi j hj => h i (Nat.lt_succ_of_lt hi) j (Nat.lt_succ_of_lt hj)
    have hfind : ((below apart n).leaders.findIdx? fun l => !apart l n) =
        (below apart n).leaders.findIdx? fun l => !far l n :=
      findIdx?_congr fun l hl => by
        rw [h l (Nat.lt_succ_of_lt (hlt l hl)) n (Nat.lt_succ_self n)]
    rw [below_succ, below_succ, ← heq, place, place, ← hfind]
    refine ⟨rfl, ?_⟩
    cases (below apart n).leaders.findIdx? fun l => !apart l n with
    | some c => exact fun l hl => Nat.lt_succ_of_lt (hlt l hl)
    | none =>
      intro l hl
      rcases List.mem_append.mp hl with hl | hl
      · exact Nat.lt_succ_of_lt (hlt l hl)
      · exact List.mem_singleton.mp hl ▸ Nat.lt_succ_self n

end Classes

/-! ## Automata -/

variable {σ τ : Type} {D : Dfa σ} {E : Dfa τ} [Identity σ] [Identity τ]

/-- The class of a number is given out when no more than the numbers up to it are placed. -/
theorem getElem?_below {i n : Nat} (hi : i ≤ n) (hn : n ≤ D.size) :
    (Classes.below D.refinement.marks.has (n + 1)).classes[i]? = some (D.classOf i) := by
  have hlt : i < (Classes.below D.refinement.marks.has (n + 1)).classes.length := by
    rw [Classes.length_classes_below]
    exact Nat.lt_succ_of_le hi
  have hpre : (Classes.below D.refinement.marks.has (n + 1)).classes <+: D.classes.classes :=
    Classes.isPrefix_classes_below (Nat.succ_le_succ hn)
  rw [← getElem?_classes (Nat.le_trans hi hn), List.getElem?_eq_getElem hlt]
  exact (getElem?_of_isPrefix hpre (List.getElem?_eq_getElem hlt)).symm

/-- **The first numbers are in the same classes if the same of them are alike.** -/
theorem classOf_congr {n : Nat} (hD : n ≤ D.size) (hE : n ≤ E.size)
    (h : ∀ i ≤ n, ∀ j ≤ n, (E.Alike i j ↔ D.Alike i j)) {i : Nat} (hi : i ≤ n) :
    E.classOf i = D.classOf i := by
  have happart : ∀ i < n + 1, ∀ j < n + 1,
      E.refinement.marks.has i j = D.refinement.marks.has i j := by
    intro i hi j hj
    have hi := Nat.le_of_lt_succ hi
    have hj := Nat.le_of_lt_succ hj
    rw [Bool.eq_iff_iff, has_refinement (hi.trans hE) (hj.trans hE),
      has_refinement (hi.trans hD) (hj.trans hD), h i hi j hj]
  have hclass := getElem?_below hi hE
  rw [(Classes.below_congr happart).1, getElem?_below hi hD] at hclass
  exact (Option.some.inj hclass).symm

/-- **The automata have the same states but for what these stand for.** -/
structure Parallel (D : Dfa σ) (E : Dfa τ) : Prop where
  alphabet_eq : E.alphabet = D.alphabet
  size_eq : E.size = D.size
  target_eq : ∀ i a, E.target i a = D.target i a
  isAccepting_eq : ∀ i, E.isAccepting i = D.isAccepting i

namespace Parallel

variable (h : D.Parallel E)

include h

theorem acceptsFrom_eq (i : Nat) (w : List Symbol) : E.acceptsFrom i w = D.acceptsFrom i w := by
  induction w generalizing i with
  | nil => exact h.isAccepting_eq i
  | cons a w ih =>
    rw [acceptsFrom, acceptsFrom, h.alphabet_eq, h.target_eq]
    simp only [ih]

theorem classes_eq : E.classes = D.classes := by
  have happart : ∀ i < E.size + 1, ∀ j < E.size + 1,
      E.refinement.marks.has i j = D.refinement.marks.has i j := by
    intro i hi j hj
    have hi := Nat.le_of_lt_succ hi
    have hj := Nat.le_of_lt_succ hj
    rw [Bool.eq_iff_iff, has_refinement hi hj, has_refinement (h.size_eq ▸ hi) (h.size_eq ▸ hj)]
    simp only [Alike, h.acceptsFrom_eq]
  refine (Classes.below_congr happart).1.trans ?_
  rw [h.size_eq]
  rfl

/-- **The minimized forms are equal.** -/
theorem minimize_eq : E.minimize = D.minimize := by
  have hsink : E.sink = D.sink := h.size_eq
  have hproject : ∀ s o, E.project s o = D.project s o := by
    intro s o
    cases o with
    | some t => rfl
    | none => simp only [project, sinkClass?, hsink, h.size_eq]
  rw [minimize, minimize, h.classes_eq, quotient, quotient, h.alphabet_eq, h.size_eq]
  simp only [keptLeaders, h.size_eq, hproject, h.target_eq, h.isAccepting_eq]

end Parallel

end Dfa

end FiniteAutomata
