import FiniteAutomata.Conversion
import FiniteAutomata.Proofs.Dfa.ShortWords
import FiniteAutomata.Proofs.Minimized.Classes

/-!
# Proofs/Minimized/Passes — how many passes the comparison of all pairs takes

The passes are a loop that ends with the first one that marks nothing (`Dfa.Passes`), and it does
end (`Dfa.passes_refinement`), since there are only so many pairs to mark. That is no good bound on
the number of passes. A better one comes from the words: each pass marks at least what words with
one more letter tell apart (`Dfa.Progress.Sound.hasBelow_pass`), whatever it has seen of its own
marks, and words shorter than the number of states tell apart all that can be marked. So from that
many passes on none marks anything (`Dfa.Passes.passes_le`).
-/

namespace FiniteAutomata

namespace Dfa

variable {σ : Type} {D : Dfa σ} {i j k : Nat} {s : D.Progress} {r : D.Refinement}

/-! ## The loop -/

/-- **What the passes from the `k`-th on come to**, with no bound on how many there are: they go on
until one marks nothing. -/
inductive Passes (D : Dfa σ) : Nat → D.Progress → D.Refinement → Prop
  | last {k : Nat} {s : D.Progress}
      (hlen : (D.pass D.targetRows k s).splits.length = s.splits.length) :
      D.Passes k s
        ⟨(D.pass D.targetRows k s).marks, (D.pass D.targetRows k s).splits.reverse, k⟩
  | more {k : Nat} {s : D.Progress} {r : D.Refinement}
      (hlen : (D.pass D.targetRows k s).splits.length ≠ s.splits.length)
      (hrest : D.Passes (k + 1) (D.pass D.targetRows k s) r) : D.Passes k s r

/-- The passes come to one thing at most. -/
theorem Passes.unique {r' : D.Refinement} (h : D.Passes k s r) (h' : D.Passes k s r') :
    r = r' := by
  induction h with
  | last hlen =>
    cases h' with
    | last => rfl
    | more hlen' _ => exact absurd hlen hlen'
  | more hlen _ ih =>
    cases h' with
    | last hlen' => exact absurd hlen' hlen
    | more _ hrest' => exact ih hrest'

theorem Passes.le_passes (h : D.Passes k s r) : k ≤ r.passes := by
  induction h with
  | last => exact Nat.le_refl _
  | more _ _ ih => exact Nat.le_of_succ_le ih

/-! ## Marks stay -/

theorem has_tryPair {p : Nat × Nat} (hp : p ∈ pairsBelow (D.size + 1)) (hj : j ≤ D.size)
    (h : s.marks.has i j = true) : (D.tryPair D.targetRows k s p).marks.has i j = true := by
  obtain ⟨hlt, hsize⟩ := mem_pairsBelow.mp hp
  rcases tryPair_eq_or D.targetRows k s p with heq | ⟨a, heq⟩
  · rw [heq]
    exact h
  · rw [heq, Marks.has_mark (Nat.lt_trans hlt hsize) hsize (Nat.lt_succ_of_le hj)]
    exact .inr (.inr h)

theorem has_foldl_tryPair {l : List (Nat × Nat)} (hl : ∀ p ∈ l, p ∈ pairsBelow (D.size + 1))
    (hj : j ≤ D.size) (h : s.marks.has i j = true) :
    (l.foldl (D.tryPair D.targetRows k) s).marks.has i j = true :=
  List.foldlRecOn (motive := fun t : D.Progress => t.marks.has i j = true) l _ h fun _ ht p hp =>
    has_tryPair (hl p hp) hj ht

/-- A pair that some symbol leads to a marked one is marked in the same pass, if it is not yet. -/
theorem has_pass_of_parts {m : Nat} (hij : i < j) (hj : j ≤ D.size) {a : Symbol}
    (ha : a ∈ D.alphabet) (hne : D.targetOrSink i a ≠ D.targetOrSink j a)
    (hparts : s.marks.has (D.targetOrSink i a) (D.targetOrSink j a) = true) :
    (D.pass D.targetRows m s).marks.has i j = true := by
  have hi : i ≤ D.size := Nat.le_of_lt (Nat.lt_of_lt_of_le hij hj)
  -- up to the pair, the pair, and from there on
  obtain ⟨l₁, l₂, hl⟩ := List.append_of_mem (mem_pairsBelow.mpr ⟨hij, Nat.lt_succ_of_le hj⟩)
  have hmem : ∀ p ∈ l₁ ++ (i, j) :: l₂, p ∈ pairsBelow (D.size + 1) := fun p hp => hl ▸ hp
  rw [pass, hl, List.foldl_append, List.foldl_cons]
  refine has_foldl_tryPair (fun p hp => hmem p (by simp [hp])) hj ?_
  have hbefore := has_foldl_tryPair (l := l₁) (k := m) (fun p hp => hmem p (by simp [hp]))
    (targetOrSink_le_size j a) hparts
  rcases tryPair_cases (k := m) (s := l₁.foldl (D.tryPair D.targetRows m) s) hi hj with
    ⟨heq, hmarked | hnone⟩ | ⟨-, b, -, -, heq⟩
  · rw [heq]
    exact hmarked
  · exact absurd hbefore (Bool.eq_false_iff.mp (hnone a ha hne))
  · rw [heq, Marks.has_mark (Nat.lt_succ_of_le hi) (Nat.lt_succ_of_le hj) (Nat.lt_succ_of_le hj)]
    exact .inl ⟨rfl, rfl⟩

variable [Identity σ]

/-! ## The end of the loop -/

/-- There are no more splits than pairs. -/
theorem Progress.Sound.length_splits_le (h : s.Sound) :
    s.splits.length ≤ (pairsBelow (D.size + 1)).length := by
  simpa using h.subperm.length_le

/-- **The bound that the comparison sets to its passes never stops it**: there are at least as many
passes allowed as there are pairs not yet split. -/
theorem Progress.Sound.passes_passesFrom {fuel : Nat} (h : s.Sound)
    (hfuel : (pairsBelow (D.size + 1)).length ≤ s.splits.length + fuel) :
    D.Passes k s (D.passesFrom D.targetRows fuel k s) := by
  induction fuel generalizing k s with
  | zero =>
    -- as many splits as pairs, so that this pass is the last one
    have hlen := Nat.le_antisymm (Nat.le_trans (h.pass k).length_splits_le hfuel)
      (length_le_pass D.targetRows k s)
    have hpasses := Passes.last hlen
    rw [(h.stable_of_pass hlen).1] at hpasses
    exact hpasses
  | succ fuel ih =>
    rw [passesFrom]
    by_cases hlen : (D.pass D.targetRows k s).splits.length = s.splits.length
    · rw [if_pos hlen]
      exact .last hlen
    · rw [if_neg hlen]
      have hlt := Nat.lt_of_le_of_ne (length_le_pass D.targetRows k s) (Ne.symm hlen)
      exact .more hlen (ih (h.pass k) (by omega))

/-- **The comparison of all pairs is what the passes come to.** -/
theorem passes_refinement (D : Dfa σ) : D.Passes 1 ⟨D.initialMarks, []⟩ D.refinement :=
  sound_initialMarks.passes_passesFrom (Nat.le_add_left _ _)

/-! ## What a pass marks at least -/

/-- **All pairs are marked that some word shorter than `k` tells apart.** -/
def Progress.HasBelow (k : Nat) (s : D.Progress) : Prop :=
  ∀ i ≤ D.size, ∀ j ≤ D.size, ¬ D.AlikeBelow k i j → s.marks.has i j = true

theorem Progress.HasBelow.alikeBelow (h : s.HasBelow k) (hi : i ≤ D.size) (hj : j ≤ D.size)
    (hij : s.marks.has i j = false) : D.AlikeBelow k i j := by
  by_contra hapart
  exact Bool.eq_false_iff.mp hij (h i hi j hj hapart)

/-- Before the first pass that is what the empty word tells apart. -/
theorem hasBelow_initialMarks : Progress.HasBelow (D := D) 1 ⟨D.initialMarks, []⟩ :=
  fun _ hi _ hj hapart => (has_initialMarks hi hj).mpr (mt alikeBelow_one_iff.mpr hapart)

/-- **A pass marks at least what words with one more letter tell apart.** -/
theorem Progress.Sound.hasBelow_pass (h : s.Sound) (hbelow : s.HasBelow k) (m : Nat) :
    (D.pass D.targetRows m s).HasBelow (k + 1) := by
  have hlt : ∀ i j, i < j → j ≤ D.size → ¬ D.AlikeBelow (k + 1) i j →
      (D.pass D.targetRows m s).marks.has i j = true := by
    intro i j hij hj hapart
    have hi := Nat.le_of_lt (Nat.lt_of_lt_of_le hij hj)
    rw [alikeBelow_succ_iff, not_and_or] at hapart
    rcases hapart with haccepting | hmoves
    · exact (h.pass m).accepting i j hi hj haccepting
    · push Not at hmoves
      obtain ⟨a, ha, hapart⟩ := hmoves
      refine has_pass_of_parts hij hj ha (fun heq => hapart (heq ▸ .refl k _)) ?_
      exact hbelow _ (targetOrSink_le_size i a) _ (targetOrSink_le_size j a) hapart
  intro i hi j hj hapart
  rcases Nat.lt_trichotomy i j with hij | rfl | hji
  · exact hlt i j hij hj hapart
  · exact absurd (.refl _ i) hapart
  · exact (h.pass m).symm j i hj hi (hlt j i hji hi fun halike => hapart halike.symm)

/-- **Once all is marked that words shorter than the number of states tell apart, a pass marks
nothing.** -/
theorem Progress.Sound.pass_eq (h : s.Sound) (hbelow : s.HasBelow D.size) (m : Nat) :
    D.pass D.targetRows m s = s := by
  refine List.foldlRecOn (motive := (· = s)) _ _ rfl ?_
  rintro _ rfl ⟨i, j⟩ hp
  obtain ⟨hij, hj⟩ := mem_pairsBelow.mp hp
  have hj := Nat.le_of_lt_succ hj
  have hi := Nat.le_of_lt (Nat.lt_of_lt_of_le hij hj)
  rcases tryPair_cases (k := m) hi hj with ⟨heq, -⟩ | ⟨hnew, a, ha, hparts, -⟩
  · exact heq
  · have halike := alike_of_alikeBelow_size hi hj (hbelow.alikeBelow hi hj hnew)
    exact absurd halike (h.not_alike_of_parts ha hparts)

/-- **There are at most as many passes as states.** -/
theorem Passes.passes_le (h : D.Passes k s r) (hs : s.Sound) (hbelow : s.HasBelow k)
    (hk : k ≤ D.size) : r.passes ≤ D.size := by
  induction h with
  | last => exact hk
  | @more k s _ hlen _ ih =>
    refine ih (hs.pass k) (hs.hasBelow_pass hbelow k) (Nat.lt_of_le_of_ne hk ?_)
    rintro rfl
    exact hlen (congrArg (fun t => t.splits.length) (hs.pass_eq hbelow _))

/-! ## The passes and the record of them -/

/-- The event that a minimization ends with. -/
def lastEvent (D : Dfa σ) : Event :=
  if D.minimize.classCount = D.size then .minimal D.size
  else .minimized D.size D.minimize.classCount

theorem lastEvent_eq_or (D : Dfa σ) : D.lastEvent = .minimal D.size ∨
    D.lastEvent = .minimized D.size D.minimize.classCount := by
  rw [lastEvent]
  split
  · exact .inl rfl
  · exact .inr rfl

theorem events_debug (D : Dfa σ) : (D.minimizeTraced .debug).events =
    D.refinement.splits.map .split ++ [.fixpoint D.refinement.passes, D.lastEvent] := by
  have hshows : ∀ l, Level.shows .debug l = true := fun l => by cases l <;> rfl
  exact List.filter_eq_self.mpr fun e _ => hshows e.level

/-- **The passes end, the one number of passes on record is theirs, and it is at most the number of
states.** Hence states from which the same words with fewer letters than there are states are
accepted are in the same class. -/
theorem passes_refinement_le_size (D : Dfa σ) :
    (∀ r, D.Passes 1 ⟨D.initialMarks, []⟩ r ↔ r = D.refinement) ∧
    (∀ k, Event.fixpoint k ∈ (D.minimizeTraced .debug).events ↔ k = D.refinement.passes) ∧
    1 ≤ D.refinement.passes ∧ D.refinement.passes ≤ D.size ∧
    ∀ i < D.size, ∀ j < D.size,
      (∀ w, (∀ a ∈ w, a ∈ D.alphabet) → w.length ≤ D.size - 1 →
        D.acceptsFrom i w = D.acceptsFrom j w) →
      D.minimize.classAssignment[i]? = D.minimize.classAssignment[j]? := by
  have hpasses := D.passes_refinement
  refine ⟨fun r => ?_, fun k => ?_, hpasses.le_passes,
    hpasses.passes_le sound_initialMarks hasBelow_initialMarks D.size_pos, ?_⟩
  · exact ⟨fun h => h.unique hpasses, fun h => h ▸ hpasses⟩
  · rw [events_debug]
    rcases D.lastEvent_eq_or with hlast | hlast <;> simp [hlast]
  · intro i hi j hj hwords
    have halike : D.Alike i j := by
      refine alike_of_alikeBelow_size (Nat.le_of_lt hi) (Nat.le_of_lt hj) fun w hw => ?_
      by_cases hover : ∀ a ∈ w, a ∈ D.alphabet
      · exact hwords w hover (Nat.le_sub_one_of_lt hw)
      · rw [acceptsFrom_of_notMem hover, acceptsFrom_of_notMem hover]
    rw [getElem?_classAssignment.mpr ⟨hi, rfl⟩, getElem?_classAssignment.mpr ⟨hj, rfl⟩,
      (classOf_eq_iff (Nat.le_of_lt hi) (Nat.le_of_lt hj)).mpr halike]

end Dfa

end FiniteAutomata
