import FiniteAutomata.Proofs.Dfa.Alike
import FiniteAutomata.Proofs.Entry
import Mathlib.Data.List.Perm.Subperm

/-!
# Proofs/Minimized/Refinement — the marked pairs are those that some word tells apart

At first a pair is marked if one of it accepts and the other does not, which the empty word tells
apart; then only if some symbol leads it to a marked pair. So what is marked is told apart by a
word, at any time (`Dfa.Progress.Sound`). A pass that marks nothing has found no symbol that leads
an unmarked pair to a marked one (`Dfa.Progress.Stable`), and then no word leads out of the unmarked
pairs (`Dfa.Progress.Sound.alike_of_has_eq_false`). Each other pass marks a pair, so such a pass
comes (`Dfa.exists_progress`).
-/

namespace FiniteAutomata

theorem mem_pairsBelow {n i j : Nat} : (i, j) ∈ pairsBelow n ↔ i < j ∧ j < n := by
  simp only [pairsBelow, List.mem_flatMap, List.mem_map, List.mem_filter, List.mem_range,
    decide_eq_true_eq, Prod.mk.injEq]
  constructor
  · rintro ⟨_, -, _, ⟨hj, hij⟩, rfl, rfl⟩
    exact ⟨hij, hj⟩
  · rintro ⟨hij, hj⟩
    exact ⟨i, Nat.lt_trans hij hj, j, ⟨hj, hij⟩, rfl, rfl⟩

/-- The pair a split is of. -/
def Split.pair (e : Split) : Nat × Nat := (e.first, e.second)

namespace Dfa

variable {σ : Type} {D : Dfa σ} {i j : Nat}

/-! ## Rows and parting symbols -/

/-- The target under the place of a symbol in the row of a state. -/
theorem getD_targetRows (hi : i ≤ D.size) {k : Nat} {a : Symbol}
    (ha : D.alphabet.symbols[k]? = some a) :
    (D.targetRows.getD i #[]).getD k D.sink = D.targetOrSink i a := by
  have hrow : D.targetRows.getD i #[] = (D.alphabet.symbols.map (D.targetOrSink i)).toArray := by
    simp [targetRows, Array.getD_eq_getD_getElem?, List.getElem?_range (Nat.lt_succ_of_le hi)]
  simp [hrow, Array.getD_eq_getD_getElem?, ha]

/-- **The parting symbol of two states is the first that leads them to a marked pair.** -/
theorem partingSymbol?_targetRows (m : D.StateMarks) (hi : i ≤ D.size) (hj : j ≤ D.size) :
    D.partingSymbol? m (D.targetRows.getD i #[]) (D.targetRows.getD j #[]) =
      D.alphabet.symbols.find? fun a =>
        D.targetOrSink i a != D.targetOrSink j a &&
          m.has (D.targetOrSink i a) (D.targetOrSink j a) :=
  map_find?_zipIdx _ fun a k ha => by
    simp only [getD_targetRows hi ha, getD_targetRows hj ha]

/-! ## Pairs, one after another -/

variable {s : D.Progress} {k : Nat} {rows : Array (Array Nat)}

/-- **A pair is left as it is or marked.** -/
theorem tryPair_eq_or (rows : Array (Array Nat)) (k : Nat) (s : D.Progress) (p : Nat × Nat) :
    D.tryPair rows k s p = s ∨
      ∃ a, D.tryPair rows k s p = ⟨s.marks.mark p.1 p.2, ⟨k, p.1, p.2, a⟩ :: s.splits⟩ := by
  rw [tryPair]
  split
  · exact .inl rfl
  · split
    · exact .inr ⟨_, rfl⟩
    · exact .inl rfl

theorem tryPair_cases (hi : i ≤ D.size) (hj : j ≤ D.size) :
    (D.tryPair D.targetRows k s (i, j) = s ∧
      (s.marks.has i j = true ∨ ∀ a ∈ D.alphabet, D.targetOrSink i a ≠ D.targetOrSink j a →
        s.marks.has (D.targetOrSink i a) (D.targetOrSink j a) = false)) ∨
    (s.marks.has i j = false ∧ ∃ a ∈ D.alphabet,
      s.marks.has (D.targetOrSink i a) (D.targetOrSink j a) = true ∧
        D.tryPair D.targetRows k s (i, j) = ⟨s.marks.mark i j, ⟨k, i, j, a⟩ :: s.splits⟩) := by
  rw [tryPair, partingSymbol?_targetRows s.marks hi hj]
  cases hm : s.marks.has i j with
  | true => exact .inl ⟨rfl, .inl rfl⟩
  | false =>
    cases ha : D.alphabet.symbols.find? _ with
    | some a =>
      have hparts := List.find?_some ha
      rw [Bool.and_eq_true] at hparts
      exact .inr ⟨rfl, a, List.mem_of_find?_eq_some ha, hparts.2, rfl⟩
    | none =>
      refine .inl ⟨rfl, .inr fun a ha' hne => ?_⟩
      have hnot := List.find?_eq_none.mp ha a ha'
      simpa [hne] using hnot

/-- **Trying pairs adds splits; if it adds none, every pair is left as it is.** -/
theorem foldl_tryPair (rows : Array (Array Nat)) (k : Nat) (l : List (Nat × Nat)) (s : D.Progress) :
    s.splits.length ≤ (l.foldl (D.tryPair rows k) s).splits.length ∧
      ((l.foldl (D.tryPair rows k) s).splits.length = s.splits.length →
        l.foldl (D.tryPair rows k) s = s ∧ ∀ p ∈ l, D.tryPair rows k s p = s) := by
  induction l generalizing s with
  | nil => exact ⟨Nat.le_refl _, fun _ => ⟨rfl, by simp⟩⟩
  | cons p l ih =>
    rw [List.foldl_cons]
    obtain ⟨hle, hsame⟩ := ih (D.tryPair rows k s p)
    rcases tryPair_eq_or rows k s p with heq | ⟨a, heq⟩
    · rw [heq] at hle hsame ⊢
      exact ⟨hle, fun hlen => ⟨(hsame hlen).1, List.forall_mem_cons.mpr ⟨heq, (hsame hlen).2⟩⟩⟩
    · have hlt : s.splits.length < (D.tryPair rows k s p).splits.length := by simp [heq]
      exact ⟨Nat.le_trans (Nat.le_of_lt hlt) hle,
        fun hlen => absurd (Nat.lt_of_lt_of_le hlt hle) (hlen ▸ Nat.lt_irrefl _)⟩

theorem length_le_pass (rows : Array (Array Nat)) (k : Nat) (s : D.Progress) :
    s.splits.length ≤ (D.pass rows k s).splits.length :=
  (foldl_tryPair rows k _ s).1

/-! ## Marks of states that accept and states that do not -/

/-- The marks after the pairs of a list that a condition selects have been marked. -/
theorem has_foldl_mark {n : Nat} (differ : Nat × Nat → Bool) {l : List (Nat × Nat)}
    (hl : ∀ p ∈ l, p.1 < n ∧ p.2 < n) (m : Marks n) {x y : Nat} (hy : y < n) :
    (l.foldl (fun m p => if differ p then m.mark p.1 p.2 else m) m).has x y = true ↔
      (∃ p ∈ l, differ p = true ∧ (x = p.1 ∧ y = p.2 ∨ x = p.2 ∧ y = p.1)) ∨
        m.has x y = true := by
  induction l generalizing m with
  | nil => simp
  | cons p l ih =>
    obtain ⟨⟨h₁, h₂⟩, hl⟩ := List.forall_mem_cons.mp hl
    rw [List.foldl_cons, ih hl]
    by_cases hp : differ p = true
    · rw [if_pos hp, Marks.has_mark h₁ h₂ hy]
      simp only [List.mem_cons, exists_eq_or_imp, hp, true_and, or_assoc, or_left_comm]
    · simp [hp]

section Marked

variable [Identity σ]

/-- **The marked pairs are at first those of which one accepts and the other does not.** -/
theorem has_initialMarks (hi : i ≤ D.size) (hj : j ≤ D.size) :
    D.initialMarks.has i j = true ↔ D.isAccepting i ≠ D.isAccepting j := by
  have hbelow : ∀ p ∈ pairsBelow (D.size + 1), p.1 < D.size + 1 ∧ p.2 < D.size + 1 := fun _ hp =>
    ⟨Nat.lt_trans (mem_pairsBelow.mp hp).1 (mem_pairsBelow.mp hp).2, (mem_pairsBelow.mp hp).2⟩
  rw [initialMarks, has_foldl_mark (fun p => D.isAccepting p.1 != D.isAccepting p.2) hbelow _
    (Nat.lt_succ_of_le hj), Marks.has_none]
  simp only [bne_iff_ne, Bool.false_eq_true, or_false]
  constructor
  · rintro ⟨_, -, hne, ⟨rfl, rfl⟩ | ⟨rfl, rfl⟩⟩
    · exact hne
    · exact hne.symm
  · intro hne
    rcases Nat.lt_trichotomy i j with hlt | rfl | hlt
    · exact ⟨(i, j), mem_pairsBelow.mpr ⟨hlt, Nat.lt_succ_of_le hj⟩, hne, .inl ⟨rfl, rfl⟩⟩
    · exact absurd rfl hne
    · exact ⟨(j, i), mem_pairsBelow.mpr ⟨hlt, Nat.lt_succ_of_le hi⟩, hne.symm, .inr ⟨rfl, rfl⟩⟩

/-! ## What is marked is told apart -/

/-- **Only pairs that some word tells apart are marked**, both ways round, among them those of which
one accepts and the other does not; and each split is of a pair of its own, which is marked. -/
structure Progress.Sound (s : D.Progress) : Prop where
  symm : ∀ i j, i ≤ D.size → j ≤ D.size → s.marks.has i j = true → s.marks.has j i = true
  not_alike : ∀ i j, i ≤ D.size → j ≤ D.size → s.marks.has i j = true → ¬ D.Alike i j
  accepting : ∀ i j, i ≤ D.size → j ≤ D.size → D.isAccepting i ≠ D.isAccepting j →
    s.marks.has i j = true
  nodup : (s.splits.map Split.pair).Nodup
  mem_pairs : ∀ e ∈ s.splits, e.pair ∈ pairsBelow (D.size + 1)
  has_split : ∀ e ∈ s.splits, s.marks.has e.first e.second = true

theorem sound_initialMarks : Progress.Sound (D := D) ⟨D.initialMarks, []⟩ where
  symm _ _ hi hj h := (has_initialMarks hj hi).mpr ((has_initialMarks hi hj).mp h).symm
  not_alike _ _ hi hj h halike := (has_initialMarks hi hj).mp h halike.isAccepting_eq
  accepting _ _ hi hj h := (has_initialMarks hi hj).mpr h
  nodup := .nil
  mem_pairs := by simp
  has_split := by simp

/-- What some symbol leads to a marked pair is told apart. -/
theorem Progress.Sound.not_alike_of_parts (h : s.Sound) {a : Symbol} (ha : a ∈ D.alphabet)
    (hparts : s.marks.has (D.targetOrSink i a) (D.targetOrSink j a) = true) : ¬ D.Alike i j :=
  fun halike => h.not_alike _ _ (targetOrSink_le_size i a) (targetOrSink_le_size j a) hparts
    (halike.targetOrSink ha)

/-- A pair that some symbol leads to a marked one may be marked. -/
theorem Progress.Sound.mark (h : s.Sound) (hij : i < j) (hj : j ≤ D.size)
    (hnew : s.marks.has i j = false) {a : Symbol} (ha : a ∈ D.alphabet)
    (hparts : s.marks.has (D.targetOrSink i a) (D.targetOrSink j a) = true) :
    Progress.Sound (D := D) ⟨s.marks.mark i j, ⟨k, i, j, a⟩ :: s.splits⟩ := by
  have hi : i ≤ D.size := Nat.le_of_lt (Nat.lt_of_lt_of_le hij hj)
  have hmark : ∀ {x y}, y ≤ D.size → ((s.marks.mark i j).has x y = true ↔
      (x = i ∧ y = j) ∨ (x = j ∧ y = i) ∨ s.marks.has x y = true) := fun hy =>
    Marks.has_mark (Nat.lt_succ_of_le hi) (Nat.lt_succ_of_le hj) (Nat.lt_succ_of_le hy)
  have hapart := h.not_alike_of_parts ha hparts
  constructor
  case symm =>
    intro x y hx hy hxy
    rcases (hmark hy).mp hxy with ⟨rfl, rfl⟩ | ⟨rfl, rfl⟩ | hold
    · exact (hmark hx).mpr (.inr (.inl ⟨rfl, rfl⟩))
    · exact (hmark hx).mpr (.inl ⟨rfl, rfl⟩)
    · exact (hmark hx).mpr (.inr (.inr (h.symm x y hx hy hold)))
  case not_alike =>
    intro x y hx hy hxy
    rcases (hmark hy).mp hxy with ⟨rfl, rfl⟩ | ⟨rfl, rfl⟩ | hold
    · exact hapart
    · exact fun halike => hapart halike.symm
    · exact h.not_alike x y hx hy hold
  case accepting =>
    intro x y hx hy hne
    exact (hmark hy).mpr (.inr (.inr (h.accepting x y hx hy hne)))
  case nodup =>
    refine List.nodup_cons.mpr ⟨fun hmem => ?_, h.nodup⟩
    -- the pair is not among those of the splits, for these are marked
    obtain ⟨e, he, hpair⟩ := List.mem_map.mp hmem
    obtain ⟨rfl, rfl⟩ := Prod.mk.inj hpair
    exact Bool.eq_false_iff.mp hnew (h.has_split e he)
  case mem_pairs =>
    exact List.forall_mem_cons.mpr ⟨mem_pairsBelow.mpr ⟨hij, Nat.lt_succ_of_le hj⟩, h.mem_pairs⟩
  case has_split =>
    refine List.forall_mem_cons.mpr ⟨(hmark hj).mpr (.inl ⟨rfl, rfl⟩), fun e he => ?_⟩
    have hlt := (mem_pairsBelow.mp (h.mem_pairs e he)).2
    exact (hmark (Nat.le_of_lt_succ hlt)).mpr (.inr (.inr (h.has_split e he)))

theorem Progress.Sound.tryPair (h : s.Sound) {p : Nat × Nat} (hp : p ∈ pairsBelow (D.size + 1)) :
    (D.tryPair D.targetRows k s p).Sound := by
  obtain ⟨hij, hj⟩ := mem_pairsBelow.mp hp
  have hj := Nat.le_of_lt_succ hj
  rcases tryPair_cases (s := s) (k := k) (Nat.le_of_lt (Nat.lt_of_lt_of_le hij hj)) hj with
    ⟨heq, -⟩ | ⟨hnew, a, ha, hparts, heq⟩
  · exact heq.symm ▸ h
  · exact heq.symm ▸ h.mark hij hj hnew ha hparts

theorem Progress.Sound.pass (h : s.Sound) (k : Nat) : (D.pass D.targetRows k s).Sound :=
  List.foldlRecOn (motive := Progress.Sound) _ _ h fun _ hs _ hp => hs.tryPair hp

/-! ## A pass that marks nothing -/

/-- No symbol leads an unmarked pair to a marked one. -/
def Progress.Stable (s : D.Progress) : Prop :=
  ∀ i j, i < j → j ≤ D.size → ∀ a ∈ D.alphabet,
    s.marks.has (D.targetOrSink i a) (D.targetOrSink j a) = true → s.marks.has i j = true

/-- **If a pass marks nothing, no symbol leads an unmarked pair to a marked one.** -/
theorem Progress.Sound.stable_of_pass (h : s.Sound)
    (hlen : (D.pass D.targetRows k s).splits.length = s.splits.length) :
    D.pass D.targetRows k s = s ∧ s.Stable := by
  obtain ⟨heq, htry⟩ := (foldl_tryPair D.targetRows k _ s).2 hlen
  refine ⟨heq, fun i j hij hj a ha hparts => ?_⟩
  have hi : i ≤ D.size := Nat.le_of_lt (Nat.lt_of_lt_of_le hij hj)
  have hsame := htry (i, j) (mem_pairsBelow.mpr ⟨hij, Nat.lt_succ_of_le hj⟩)
  rcases tryPair_cases (s := s) (k := k) hi hj with ⟨-, hmarked | hnone⟩ | ⟨-, b, -, -, hmark⟩
  · exact hmarked
  · by_cases hne : D.targetOrSink i a = D.targetOrSink j a
    · rw [hne] at hparts
      exact absurd (Alike.refl _) (h.not_alike _ _ (targetOrSink_le_size j a)
        (targetOrSink_le_size j a) hparts)
    · exact absurd hparts (Bool.eq_false_iff.mp (hnone a ha hne))
  · have hsplits := congrArg (fun t => t.splits.length) (hmark.symm.trans hsame)
    simp at hsplits

theorem Progress.Sound.subperm (h : s.Sound) :
    (s.splits.map Split.pair).Subperm (pairsBelow (D.size + 1)) := by
  refine List.subperm_of_subset h.nodup fun p hp => ?_
  obtain ⟨e, he, rfl⟩ := List.mem_map.mp hp
  exact h.mem_pairs e he

/-- With as many splits as pairs all pairs are marked. -/
theorem Progress.Sound.stable_of_length (h : s.Sound)
    (hlen : (pairsBelow (D.size + 1)).length ≤ s.splits.length) : s.Stable := by
  intro i j hij hj _ _ _
  have hperm := h.subperm.perm_of_length_le (by simpa using hlen)
  have hmem := hperm.mem_iff.mpr (mem_pairsBelow.mpr ⟨hij, Nat.lt_succ_of_le hj⟩)
  obtain ⟨e, he, hpair⟩ := List.mem_map.mp hmem
  obtain ⟨rfl, rfl⟩ := Prod.mk.inj hpair
  exact h.has_split e he

/-- **Passes come to an end in which what is marked is told apart and the rest is stable**, if there
are as many as there are pairs not yet split. -/
theorem exists_progress {fuel : Nat} (h : s.Sound)
    (hfuel : (pairsBelow (D.size + 1)).length ≤ s.splits.length + fuel) :
    ∃ t : D.Progress, t.Sound ∧ t.Stable ∧
      (D.passesFrom D.targetRows fuel k s).marks = t.marks ∧
      (D.passesFrom D.targetRows fuel k s).splits = t.splits.reverse := by
  induction fuel generalizing k s with
  | zero => exact ⟨s, h, h.stable_of_length hfuel, rfl, rfl⟩
  | succ fuel ih =>
    rw [passesFrom]
    by_cases hlen : (D.pass D.targetRows k s).splits.length = s.splits.length
    · obtain ⟨heq, hstable⟩ := h.stable_of_pass hlen
      rw [if_pos hlen, heq]
      exact ⟨s, h, hstable, rfl, rfl⟩
    · rw [if_neg hlen]
      have hlt := Nat.lt_of_le_of_ne (length_le_pass D.targetRows k s) (Ne.symm hlen)
      exact ih (h.pass k) (by omega)

/-! ## What is told apart is marked -/

/-- In a stable state both ways round of a pair are stable. -/
theorem Progress.Sound.has_of_parts (h : s.Sound) (hs : s.Stable) (hi : i ≤ D.size)
    (hj : j ≤ D.size) {a : Symbol} (ha : a ∈ D.alphabet)
    (hparts : s.marks.has (D.targetOrSink i a) (D.targetOrSink j a) = true) :
    s.marks.has i j = true := by
  have hti := targetOrSink_le_size (D := D) i a
  have htj := targetOrSink_le_size (D := D) j a
  rcases Nat.lt_trichotomy i j with hlt | rfl | hlt
  · exact hs i j hlt hj a ha hparts
  · exact absurd (Alike.refl _) (h.not_alike _ _ hti htj hparts)
  · exact h.symm j i hj hi (hs j i hlt hi a ha (h.symm _ _ hti htj hparts))

/-- **No word tells an unmarked pair apart**: each of its symbols leads to an unmarked pair, and of
that at its end both accept or none. -/
theorem Progress.Sound.alike_of_has_eq_false (h : s.Sound) (hs : s.Stable) (hi : i ≤ D.size)
    (hj : j ≤ D.size) (hij : s.marks.has i j = false) : D.Alike i j := by
  intro w
  induction w generalizing i j with
  | nil =>
    by_contra hne
    exact Bool.eq_false_iff.mp hij (h.accepting i j hi hj hne)
  | cons a w ih =>
    by_cases ha : a ∈ D.alphabet
    · rw [acceptsFrom_cons ha, acceptsFrom_cons ha]
      refine ih (targetOrSink_le_size i a) (targetOrSink_le_size j a) (Bool.eq_false_iff.mpr ?_)
      exact fun hparts => Bool.eq_false_iff.mp hij (h.has_of_parts hs hi hj ha hparts)
    · have hw : ¬ ∀ b ∈ a :: w, b ∈ D.alphabet := fun hw => ha (hw a List.mem_cons_self)
      rw [acceptsFrom_of_notMem hw, acceptsFrom_of_notMem hw]

/-- **The comparison of all pairs marks those that some word tells apart.** -/
theorem has_refinement (hi : i ≤ D.size) (hj : j ≤ D.size) :
    D.refinement.marks.has i j = true ↔ ¬ D.Alike i j := by
  obtain ⟨t, hsound, hstable, hmarks, -⟩ :=
    exists_progress (k := 1) (sound_initialMarks (D := D)) (Nat.le_add_left _ _)
  rw [refinement, hmarks]
  refine ⟨hsound.not_alike i j hi hj, fun hapart => ?_⟩
  by_contra hnot
  exact hapart (hsound.alike_of_has_eq_false hstable hi hj (Bool.eq_false_iff.mpr hnot))

end Marked

end Dfa

end FiniteAutomata
