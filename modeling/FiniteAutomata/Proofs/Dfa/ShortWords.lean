import FiniteAutomata.Proofs.Dfa.Alike
import Mathlib.Data.Finset.Card
import Mathlib.Data.Finset.Range

/-!
# Proofs/Dfa/ShortWords — how long a word must be to tell states apart

States may be compared on the words below some length only (`Dfa.AlikeBelow`). One more letter tells
no states apart from which the same is accepted now and each symbol leads to states that the shorter
words do not tell apart (`Dfa.alikeBelow_succ_iff`). So once one more letter tells no more states
apart, none ever will, and until then it makes one more class at least. The states and the sink
fall into so many classes at most as there are of them, so the words shorter than the number of
states tell apart all that any word does (`Dfa.alike_of_alikeBelow_size`).
-/

namespace FiniteAutomata

namespace Dfa

variable {σ : Type} [Identity σ] {D : Dfa σ} {i j k l : Nat}

/-- **No word shorter than `k` tells the two states apart.** -/
def AlikeBelow (D : Dfa σ) (k i j : Nat) : Prop :=
  ∀ w : List Symbol, w.length < k → D.acceptsFrom i w = D.acceptsFrom j w

theorem AlikeBelow.refl (k i : Nat) : D.AlikeBelow k i i := fun _ _ => rfl

theorem AlikeBelow.symm (h : D.AlikeBelow k i j) : D.AlikeBelow k j i := fun w hw => (h w hw).symm

theorem AlikeBelow.trans {x : Nat} (h : D.AlikeBelow k i j) (h' : D.AlikeBelow k j x) :
    D.AlikeBelow k i x := fun w hw => (h w hw).trans (h' w hw)

theorem AlikeBelow.mono (h : D.AlikeBelow k i j) (hlk : l ≤ k) : D.AlikeBelow l i j :=
  fun w hw => h w (Nat.lt_of_lt_of_le hw hlk)

theorem Alike.below (h : D.Alike i j) (k : Nat) : D.AlikeBelow k i j := fun w _ => h w

theorem alike_of_forall_alikeBelow (h : ∀ k, D.AlikeBelow k i j) : D.Alike i j := fun w =>
  h (w.length + 1) w (Nat.lt_succ_self _)

/-- There is no word shorter than the empty one. -/
theorem alikeBelow_zero (i j : Nat) : D.AlikeBelow 0 i j :=
  fun _ hw => absurd hw (Nat.not_lt_zero _)

/-- **The words with one more letter are compared by what comes after the first.** -/
theorem alikeBelow_succ_iff : D.AlikeBelow (k + 1) i j ↔ D.isAccepting i = D.isAccepting j ∧
    ∀ a ∈ D.alphabet, D.AlikeBelow k (D.targetOrSink i a) (D.targetOrSink j a) := by
  constructor
  · refine fun h => ⟨h [] (Nat.zero_lt_succ k), fun a ha w hw => ?_⟩
    rw [← acceptsFrom_cons ha, ← acceptsFrom_cons ha]
    exact h (a :: w) (Nat.succ_lt_succ hw)
  · rintro ⟨haccepting, hmoves⟩ w hw
    cases w with
    | nil => exact haccepting
    | cons a w =>
      by_cases ha : a ∈ D.alphabet
      · rw [acceptsFrom_cons ha, acceptsFrom_cons ha]
        exact hmoves a ha w (Nat.lt_of_succ_lt_succ hw)
      · have hout : ¬ ∀ b ∈ a :: w, b ∈ D.alphabet := fun h => ha (h a List.mem_cons_self)
        rw [acceptsFrom_of_notMem hout, acceptsFrom_of_notMem hout]

theorem alikeBelow_one_iff : D.AlikeBelow 1 i j ↔ D.isAccepting i = D.isAccepting j := by
  rw [alikeBelow_succ_iff]
  exact and_iff_left fun _ _ => alikeBelow_zero _ _

/-! ## Lengths at which nothing more is told apart -/

/-- **One more letter tells no more states apart**, the sink among them. -/
def IsSettled (D : Dfa σ) (k : Nat) : Prop :=
  ∀ i ≤ D.size, ∀ j ≤ D.size, D.AlikeBelow k i j → D.AlikeBelow (k + 1) i j

/-- **Then no word tells more states apart.** -/
theorem IsSettled.alike (h : D.IsSettled k) (hi : i ≤ D.size) (hj : j ≤ D.size)
    (hij : D.AlikeBelow k i j) : D.Alike i j := by
  refine alike_of_forall_alikeBelow fun l => ?_
  induction l generalizing i j with
  | zero => exact alikeBelow_zero i j
  | succ l ih =>
    obtain ⟨haccepting, hmoves⟩ := alikeBelow_succ_iff.mp (h i hi j hj hij)
    refine alikeBelow_succ_iff.mpr ⟨haccepting, fun a ha => ?_⟩
    exact ih (targetOrSink_le_size i a) (targetOrSink_le_size j a) (hmoves a ha)

/-! ## First members

Each class is counted by its first member, so that a finer comparison keeps all that are counted. -/

open scoped Classical in
/-- **The states, and perhaps the sink, that words shorter than `k` tell apart from all before
them.** -/
noncomputable def firstMembers (D : Dfa σ) (k : Nat) : Finset Nat :=
  (Finset.range (D.size + 1)).filter fun i => ∀ j < i, ¬ D.AlikeBelow k j i

theorem mem_firstMembers :
    i ∈ D.firstMembers k ↔ i ≤ D.size ∧ ∀ j < i, ¬ D.AlikeBelow k j i := by
  simp only [firstMembers, Finset.mem_filter, Finset.mem_range, Nat.lt_succ_iff]

theorem firstMembers_subset_succ (D : Dfa σ) (k : Nat) :
    D.firstMembers k ⊆ D.firstMembers (k + 1) := fun i hi => by
  obtain ⟨hle, hfirst⟩ := mem_firstMembers.mp hi
  exact mem_firstMembers.mpr ⟨hle, fun j hj h => hfirst j hj (h.mono (Nat.le_succ k))⟩

theorem card_firstMembers_le (D : Dfa σ) (k : Nat) : (D.firstMembers k).card ≤ D.size + 1 :=
  calc
    (D.firstMembers k).card ≤ (Finset.range (D.size + 1)).card := Finset.card_le_card fun _ hi =>
      Finset.mem_range.mpr (Nat.lt_succ_of_le (mem_firstMembers.mp hi).1)
    _ = D.size + 1 := Finset.card_range _

/-- The start state is a first member. -/
theorem zero_mem_firstMembers (D : Dfa σ) (k : Nat) : 0 ∈ D.firstMembers k :=
  mem_firstMembers.mpr ⟨Nat.zero_le _, fun _ h => absurd h (Nat.not_lt_zero _)⟩

theorem exists_firstMember (k : Nat) (hi : i ≤ D.size) :
    ∃ m ∈ D.firstMembers k, D.AlikeBelow k m i := by
  induction i using Nat.strong_induction_on with
  | _ i ih =>
    by_cases hfirst : ∀ j < i, ¬ D.AlikeBelow k j i
    · exact ⟨i, mem_firstMembers.mpr ⟨hi, hfirst⟩, .refl k i⟩
    · push Not at hfirst
      obtain ⟨j, hj, hji⟩ := hfirst
      obtain ⟨m, hm, hmj⟩ := ih j hj (Nat.le_trans (Nat.le_of_lt hj) hi)
      exact ⟨m, hm, hmj.trans hji⟩

/-- First members that are not told apart are the same. -/
theorem eq_of_mem_firstMembers (hi : i ∈ D.firstMembers k) (hj : j ∈ D.firstMembers k)
    (h : D.AlikeBelow k i j) : i = j := by
  rcases Nat.lt_trichotomy i j with hlt | heq | hlt
  · exact absurd h ((mem_firstMembers.mp hj).2 i hlt)
  · exact heq
  · exact absurd h.symm ((mem_firstMembers.mp hi).2 j hlt)

/-- **If there are no new first members, no more states are told apart.** -/
theorem isSettled_of_firstMembers_eq (h : D.firstMembers (k + 1) = D.firstMembers k) :
    D.IsSettled k := by
  -- the finer first member of a state is an old one, so it is the coarser one too
  have hfiner : ∀ x ≤ D.size, ∀ m ∈ D.firstMembers k, D.AlikeBelow k m x →
      D.AlikeBelow (k + 1) m x := fun x hx m hm hmx => by
    obtain ⟨m', hm', hm'x⟩ := exists_firstMember (k + 1) hx
    have hsame : D.AlikeBelow k m m' := hmx.trans (hm'x.mono (Nat.le_succ k)).symm
    exact eq_of_mem_firstMembers hm (h ▸ hm') hsame ▸ hm'x
  intro i hi j hj hij
  obtain ⟨m, hm, hmi⟩ := exists_firstMember k hi
  exact (hfiner i hi m hm hmi).symm.trans (hfiner j hj m hm (hmi.trans hij))

/-- As long as each letter tells more states apart, it adds a first member. -/
theorem lt_card_firstMembers (h : ∀ l < k, ¬ D.IsSettled l) : k < (D.firstMembers k).card := by
  induction k with
  | zero => exact Finset.card_pos.mpr ⟨0, D.zero_mem_firstMembers 0⟩
  | succ k ih =>
    have hne : D.firstMembers k ≠ D.firstMembers (k + 1) := fun heq =>
      h k (Nat.lt_succ_self k) (isSettled_of_firstMembers_eq heq.symm)
    calc
      k + 1 ≤ (D.firstMembers k).card := ih fun l hl => h l (Nat.lt_succ_of_lt hl)
      _ < (D.firstMembers (k + 1)).card :=
        Finset.card_lt_card ((D.firstMembers_subset_succ k).ssubset_of_ne hne)

/-- **Nothing more is told apart from some length on, which is not above the number of states.** -/
theorem exists_isSettled (D : Dfa σ) : ∃ k ≤ D.size, D.IsSettled k := by
  by_contra hnone
  push Not at hnone
  have hlt := lt_card_firstMembers fun l hl => hnone l (Nat.le_of_lt_succ hl)
  exact absurd (D.card_firstMembers_le (D.size + 1)) (Nat.not_le_of_lt hlt)

/-- **The words shorter than the number of states tell apart all that any word does.** -/
theorem alike_of_alikeBelow_size (hi : i ≤ D.size) (hj : j ≤ D.size)
    (h : D.AlikeBelow D.size i j) : D.Alike i j := by
  obtain ⟨k, hk, hsettled⟩ := D.exists_isSettled
  exact hsettled.alike hi hj (h.mono hk)

end Dfa

end FiniteAutomata
