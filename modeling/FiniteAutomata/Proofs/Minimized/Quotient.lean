import FiniteAutomata.Proofs.Minimized.Classes
import FiniteAutomata.Proofs.Sameness

/-!
# Proofs/Minimized/Quotient — the automaton of the classes accepts what the states accept

The move of a class is that of its first member, so it leads where the moves of all its members
lead, to the class of their targets (`Dfa.query_classOf`); a missing move counts as one to the sink,
and is missing for the class unless some state shares the sink's class. So a class accepts the words
that its members accept (`Dfa.acceptsFrom_classOf`), and the automaton of the classes is a quotient
whichever members stand for the classes (`Dfa.isQuotient_minimize`).
-/

namespace FiniteAutomata

/-! ## Looking moves up -/

namespace Minimized

variable {κ : Type} {M : Minimized κ}

theorem rowOf_int {c : Nat} {row : List (Value × Option κ)} (h : M.rows[c]? = some row) :
    M.rowOf (.int c) = .ok row := by
  obtain ⟨hc, rfl⟩ := List.getElem?_eq_some_iff.mp h
  rw [rowOf, Value.toPlace_int hc]
  rfl

/-- The target listed for a symbol. -/
theorem targetIn_map {l : List Symbol} {a : Symbol} (ha : a ∈ l) (f : Symbol → Option κ) :
    targetIn (l.map fun b => (.text b, f b)) (.text a) = .ok (f a) := by
  have hfind : (l.map fun b => (Value.text b, f b)).find? (fun e => e.1.same (.text a)) =
      some (.text a, f a) := by
    rw [List.find?_map, Option.map_eq_some_iff]
    cases hb : l.find? _ with
    | none => exact absurd (BEq.refl a) (List.find?_eq_none.mp hb a ha)
    | some b =>
      have hsame := List.find?_some hb
      obtain rfl : b = a := eq_of_beq hsame
      exact ⟨b, rfl, rfl⟩
  rw [targetIn, hfind]

end Minimized

namespace Dfa

variable {σ : Type} [Identity σ] {D : Dfa σ} {i c l : Nat} {a : Symbol}

/-! ## Moves -/

/-- **The class that a state or the sink has in the automaton of the classes**, if it is kept. -/
def keptClass? (D : Dfa σ) (i : Nat) : Option Nat :=
  if D.classOf i < D.minimize.classCount then some (D.classOf i) else none

theorem keptClass?_of_lt (hi : i < D.size) : D.keptClass? i = some (D.classOf i) :=
  if_pos (classOf_lt_classCount hi)

/-- The sink's class, if it is kept, is that which missing moves lead to. -/
theorem sinkClass?_classes (D : Dfa σ) : D.sinkClass? D.classes = D.keptClass? D.sink := by
  have hmem : ((D.classes.classes.take D.size).contains (D.classOf D.sink)) = true ↔
      D.classOf D.sink < D.minimize.classCount := by
    rw [List.contains_iff_mem]
    exact mem_classAssignment
  by_cases hkept : D.classOf D.sink < D.minimize.classCount
  · exact (if_pos (hmem.mpr hkept)).trans (if_pos hkept).symm
  · exact (if_neg fun h => hkept (hmem.mp h)).trans (if_neg hkept).symm

/-- **A target leads to its class, a missing one to that of the sink.** -/
theorem project_target (i : Nat) (a : Symbol) :
    D.project D.classes (D.target i a) = D.keptClass? (D.targetOrSink i a) := by
  cases h : D.target i a with
  | none =>
    rw [targetOrSink_of_none h]
    exact sinkClass?_classes D
  | some j =>
    rw [targetOrSink_of_some h, keptClass?_of_lt (target_lt_size h)]
    rfl

theorem keptClass?_congr {j : Nat} (h : D.classOf i = D.classOf j) :
    D.keptClass? i = D.keptClass? j := by
  rw [keptClass?, keptClass?, h]

/-- **On each symbol a class leads to the class of the targets of its members.** -/
theorem query_classOf (hi : i ≤ D.size) (hc : D.classOf i < D.minimize.classCount)
    (ha : a ∈ D.alphabet) : D.minimize.query (.int (D.classOf i)) (.text a) =
      .ok (D.keptClass? (D.targetOrSink i a)) := by
  obtain ⟨l, hl, halike⟩ := exists_keptLeader_alike hi hc
  have hrow : D.minimize.rows[D.classOf i]? =
      some (D.alphabet.symbols.map fun b => (.text b, D.project D.classes (D.target l b))) := by
    simp [minimize, quotient, hl]
  have hquery : D.minimize.query (.int (D.classOf i)) (.text a) =
      .ok (D.project D.classes (D.target l a)) := by
    rw [Minimized.query, Minimized.rowOf_int hrow]
    exact Minimized.targetIn_map ha _
  rw [hquery, project_target]
  refine congrArg _ (keptClass?_congr ?_)
  exact (classOf_eq_iff (targetOrSink_le_size l a) (targetOrSink_le_size i a)).mpr
    (halike.targetOrSink ha)

/-! ## Acceptance -/

/-- The accepting classes are those whose leaders accept. -/
theorem mem_accepting : c ∈ D.minimize.accepting ↔
    ∃ l, (D.keptLeaders D.classes)[c]? = some l ∧ D.isAccepting l = true := by
  simp only [minimize, quotient, List.mem_map, List.mem_filter]
  constructor
  · rintro ⟨⟨l, d⟩, ⟨hl, hacc⟩, rfl⟩
    exact ⟨l, List.mem_zipIdx_iff_getElem?.mp hl, hacc⟩
  · rintro ⟨l, hl, hacc⟩
    exact ⟨(l, c), ⟨List.mem_zipIdx_iff_getElem?.mpr hl, hacc⟩, rfl⟩

theorem classOf_mem_accepting (hi : i ≤ D.size) (hc : D.classOf i < D.minimize.classCount) :
    D.classOf i ∈ D.minimize.accepting ↔ D.isAccepting i = true := by
  obtain ⟨l, hl, halike⟩ := exists_keptLeader_alike hi hc
  rw [mem_accepting, ← halike.isAccepting_eq]
  constructor
  · rintro ⟨k, hk, hacc⟩
    obtain rfl : l = k := Option.some.inj (hl.symm.trans hk)
    exact hacc
  · exact fun hacc => ⟨l, hl, hacc⟩

/-- **A class accepts exactly if its members do.** -/
theorem isAccepting_classOf (hi : i ≤ D.size) (hc : D.classOf i < D.minimize.classCount) :
    D.minimize.isAccepting (.int (D.classOf i)) = .ok (D.isAccepting i) := by
  have hamong : D.minimize.isAmongAccepting (.int (D.classOf i)) = D.isAccepting i := by
    rw [Bool.eq_iff_iff, ← classOf_mem_accepting hi hc]
    simp [Minimized.isAmongAccepting, ClassName.toValue, Value.same_int]
  exact congrArg Except.ok hamong

/-- **From a class the words are accepted that are accepted from its members.**  By induction on the
word: a move leads to a class of which the targets are members, or to none if the members go to the
sink, from where nothing is accepted. -/
theorem acceptsFrom_classOf (hi : i ≤ D.size) (hc : D.classOf i < D.minimize.classCount)
    (w : List Symbol) :
    D.minimize.acceptsFrom (.int (D.classOf i)) w = .ok (D.acceptsFrom i w) := by
  induction w generalizing i with
  | nil => exact isAccepting_classOf hi hc
  | cons a w ih =>
    rw [Minimized.acceptsFrom]
    by_cases ha : a ∈ D.alphabet
    · rw [if_pos (show a ∈ D.minimize.alphabet from ha), query_classOf hi hc ha,
        acceptsFrom_cons ha, keptClass?]
      by_cases ht : D.classOf (D.targetOrSink i a) < D.minimize.classCount
      · rw [if_pos ht]
        exact ih (targetOrSink_le_size i a) ht
      · rw [if_neg ht]
        have hsink : D.size ≤ D.targetOrSink i a :=
          Nat.le_of_not_lt fun hlt => ht (classOf_lt_classCount hlt)
        rw [acceptsFrom_of_size_le hsink]
        rfl
    · rw [if_neg (show ¬ a ∈ D.minimize.alphabet from ha), acceptsFrom, if_neg ha]

/-- **The automaton of the classes accepts the same words.** -/
theorem accepts_minimize (D : Dfa σ) (w : List Symbol) :
    D.minimize.accepts w = .ok (D.accepts w) := by
  have h := acceptsFrom_classOf (Nat.zero_le _) (classOf_lt_classCount D.size_pos) w
  rwa [classOf_zero] at h

/-! ## Missing moves -/

/-- **The sink's class is kept exactly if some state is dead.** -/
theorem classOf_sink_lt_iff :
    D.classOf D.sink < D.minimize.classCount ↔ ∃ i < D.size, D.Dead i := by
  rw [lt_classCount_iff]
  refine exists_congr fun i => and_congr_right fun hi => ?_
  exact (classOf_eq_iff (Nat.le_of_lt hi) (Nat.le_refl _)).trans alike_sink_iff

/-- If there is a dead state, the sink's class is kept, and is that of the dead state. -/
theorem keptClass?_sink_of_dead (hi : i < D.size) (hdead : D.Dead i) :
    D.keptClass? D.sink = some (D.classOf i) := by
  have hclass : D.classOf i = D.classOf D.sink :=
    (classOf_eq_iff (Nat.le_of_lt hi) (Nat.le_refl _)).mpr (alike_sink_iff.mpr hdead)
  rw [← keptClass?_congr hclass, keptClass?_of_lt hi]

/-- If there is no dead state, the sink's class is not kept. -/
theorem keptClass?_sink_of_not_dead (h : ∀ i < D.size, ¬ D.Dead i) :
    D.keptClass? D.sink = none := by
  refine if_neg fun hkept => ?_
  obtain ⟨i, hi, hdead⟩ := classOf_sink_lt_iff.mp hkept
  exact h i hi hdead

/-! ## The quotient -/

/-- **Each class does what all its members do**: it accepts if they do, a move of a member is one to
the class of its target, and a missing move is one to the class of the dead states, if there are
any, and missing otherwise. -/
structure IsQuotient (D : Dfa σ) (M : Minimized Nat) : Prop where
  length_eq : M.classAssignment.length = D.size
  isAccepting_eq : ∀ i c : Nat, M.classAssignment[i]? = some c →
    M.isAccepting (.int c) = .ok (D.isAccepting i)
  query_of_some : ∀ (i c j : Nat) (a : Symbol), M.classAssignment[i]? = some c →
    a ∈ D.alphabet → D.target i a = some j →
      ∃ d : Nat, M.classAssignment[j]? = some d ∧ M.query (.int c) (.text a) = .ok (some d)
  query_of_none_of_dead : ∀ (i c k d : Nat) (a : Symbol), M.classAssignment[i]? = some c →
    a ∈ D.alphabet → D.target i a = none → M.classAssignment[k]? = some d → D.Dead k →
      M.query (.int c) (.text a) = .ok (some d)
  query_of_none_of_not_dead : ∀ (i c : Nat) (a : Symbol), M.classAssignment[i]? = some c →
    a ∈ D.alphabet → D.target i a = none → (∀ k < D.size, ¬ D.Dead k) →
      M.query (.int c) (.text a) = .ok none

/-- The class of a state leads where the state's own move leads. -/
theorem query_of_classAssignment (hc : D.minimize.classAssignment[i]? = some c)
    (ha : a ∈ D.alphabet) :
    D.minimize.query (.int c) (.text a) = .ok (D.keptClass? (D.targetOrSink i a)) := by
  obtain ⟨hi, rfl⟩ := getElem?_classAssignment.mp hc
  exact query_classOf (Nat.le_of_lt hi) (classOf_lt_classCount hi) ha

/-- **The minimized automaton is a quotient**, whichever member of a class its moves are taken
from. -/
theorem isQuotient_minimize (D : Dfa σ) : D.IsQuotient D.minimize where
  length_eq := by simp [classAssignment_minimize]
  isAccepting_eq i c hc := by
    obtain ⟨hi, rfl⟩ := getElem?_classAssignment.mp hc
    exact isAccepting_classOf (Nat.le_of_lt hi) (classOf_lt_classCount hi)
  query_of_some i c j a hc ha hj := by
    have hlt := target_lt_size hj
    refine ⟨D.classOf j, getElem?_classAssignment.mpr ⟨hlt, rfl⟩, ?_⟩
    rw [query_of_classAssignment hc ha, targetOrSink_of_some hj, keptClass?_of_lt hlt]
  query_of_none_of_dead i c k d a hc ha hnone hd hdead := by
    obtain ⟨hk, rfl⟩ := getElem?_classAssignment.mp hd
    rw [query_of_classAssignment hc ha, targetOrSink_of_none hnone,
      keptClass?_sink_of_dead hk hdead]
  query_of_none_of_not_dead i c a hc ha hnone hlive := by
    rw [query_of_classAssignment hc ha, targetOrSink_of_none hnone,
      keptClass?_sink_of_not_dead hlive]

end Dfa

end FiniteAutomata
