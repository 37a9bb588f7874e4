import FiniteAutomata.Proofs.Minimized.Passes

/-!
# Proofs/Minimized/Log — what the record of a minimization says

Each split on record is of a pair that the pass found not yet told apart although a symbol leads it
to a pair that is (`Dfa.IsGenuine`). Since no pass leaves unmarked what words with as many letters
as there were passes tell apart, the number of the pass is no more than the length of any such word.
All that is marked and not from the start has its split (`Dfa.Progress.Recorded`), a pass puts its
splits after those of the passes before it (`Dfa.Progress.InOrder`), and the passes keep both
(`Dfa.Passes.exists_recorded`). So the record lists what it should (`Dfa.events_minimizeTraced`).
-/

namespace FiniteAutomata

namespace Dfa

variable {σ : Type} {D : Dfa σ} {i j k : Nat} {s : D.Progress} {r : D.Refinement}

/-! ## The order of the splits -/

/-- **Pairs tried in a pass add only splits of that pass**, the newest first. -/
theorem exists_splits_foldl (rows : Array (Array Nat)) (k : Nat) (l : List (Nat × Nat))
    (s : D.Progress) :
    ∃ new, (l.foldl (D.tryPair rows k) s).splits = new ++ s.splits ∧ ∀ e ∈ new, e.pass = k := by
  refine List.foldlRecOn (motive := fun t : D.Progress =>
    ∃ new, t.splits = new ++ s.splits ∧ ∀ e ∈ new, e.pass = k) l _ ⟨[], rfl, by simp⟩ ?_
  rintro t ⟨new, hnew, hpass⟩ p -
  rcases tryPair_eq_or rows k t p with heq | ⟨a, heq⟩
  · exact ⟨new, heq.symm ▸ hnew, hpass⟩
  · refine ⟨⟨k, p.1, p.2, a⟩ :: new, ?_, List.forall_mem_cons.mpr ⟨rfl, hpass⟩⟩
    rw [heq, hnew, List.cons_append]

/-- The pass of the newest split, zero if there is none. -/
def Progress.lastPass (s : D.Progress) : Nat := (s.splits.head?.map Split.pass).getD 0

/-- **Before the `k`-th pass**: the newest splits have the greatest passes, and the last of these is
the one before. -/
structure Progress.InOrder (k : Nat) (s : D.Progress) : Prop where
  pairwise : s.splits.Pairwise fun e f => f.pass ≤ e.pass
  lastPass_succ : s.lastPass + 1 = k

theorem Progress.InOrder.pass_lt (h : s.InOrder k) : ∀ e ∈ s.splits, e.pass < k := by
  intro e he
  obtain ⟨f, l, hl⟩ := List.exists_cons_of_ne_nil (List.ne_nil_of_mem he)
  have hle : e.pass ≤ f.pass := by
    have hpairwise := h.pairwise
    rw [hl] at hpairwise he
    rcases List.mem_cons.mp he with rfl | he
    · exact Nat.le_refl _
    · exact List.rel_of_pairwise_cons hpairwise he
  calc
    e.pass < f.pass + 1 := Nat.lt_succ_of_le hle
    _ = s.lastPass + 1 := by simp [lastPass, hl]
    _ = k := h.lastPass_succ

/-- **A pass that adds splits keeps the order.** -/
theorem Progress.InOrder.pass (h : s.InOrder k)
    (hlen : (D.pass D.targetRows k s).splits.length ≠ s.splits.length) :
    (D.pass D.targetRows k s).InOrder (k + 1) := by
  obtain ⟨new, hnew, hpass⟩ := exists_splits_foldl D.targetRows k (pairsBelow (D.size + 1)) s
  change (D.pass D.targetRows k s).splits = _ at hnew
  constructor
  case pairwise =>
    rw [hnew, List.pairwise_append]
    refine ⟨List.pairwise_of_forall_mem_list fun e he f hf => ?_, h.pairwise, fun e he f hf => ?_⟩
    · exact Nat.le_of_eq ((hpass f hf).trans (hpass e he).symm)
    · rw [hpass e he]
      exact Nat.le_of_lt (h.pass_lt f hf)
  case lastPass_succ =>
    cases new with
    | nil => exact absurd (congrArg List.length hnew) hlen
    | cons e new => simp [lastPass, hnew, hpass e List.mem_cons_self]

/-! ## What each split says -/

variable [Identity σ]

/-- **A split says what is so**: both of the pair accept or none, the symbol leads them to states
that some word tells apart, and no word shorter than the number of the pass tells them apart. -/
structure IsGenuine (D : Dfa σ) (e : Split) : Prop where
  isAccepting_eq : D.isAccepting e.first = D.isAccepting e.second
  symbol_mem : e.symbol ∈ D.alphabet
  not_alike : ¬ D.Alike (D.targetOrSink e.first e.symbol) (D.targetOrSink e.second e.symbol)
  pass_pos : 0 < e.pass
  alikeBelow : D.AlikeBelow e.pass e.first e.second

/-- **In the course of the `k`-th pass**: what words shorter than `k` tell apart is marked, all
splits are genuine, and each pair that is marked, but not from the start, has one. -/
structure Progress.Recorded (k : Nat) (s : D.Progress) : Prop where
  sound : s.Sound
  hasBelow : s.HasBelow k
  genuine : ∀ e ∈ s.splits, D.IsGenuine e
  mem_pairs : ∀ i j, i < j → j ≤ D.size → D.isAccepting i = D.isAccepting j →
    s.marks.has i j = true → (i, j) ∈ s.splits.map Split.pair

theorem recorded_initialMarks : Progress.Recorded (D := D) 1 ⟨D.initialMarks, []⟩ where
  sound := sound_initialMarks
  hasBelow := hasBelow_initialMarks
  genuine := by simp
  mem_pairs i j hij hj haccepting hmarked := by
    have hi := Nat.le_of_lt (Nat.lt_of_lt_of_le hij hj)
    exact absurd haccepting ((has_initialMarks hi hj).mp hmarked)

/-- **Trying a pair keeps the record.** -/
theorem Progress.Recorded.tryPair (h : s.Recorded k) (hk : 0 < k) {p : Nat × Nat}
    (hp : p ∈ pairsBelow (D.size + 1)) : (D.tryPair D.targetRows k s p).Recorded k := by
  obtain ⟨hij, hj⟩ := mem_pairsBelow.mp hp
  have hj := Nat.le_of_lt_succ hj
  have hi := Nat.le_of_lt (Nat.lt_of_lt_of_le hij hj)
  rcases tryPair_cases (s := s) (k := k) hi hj with ⟨heq, -⟩ | ⟨hnew, a, ha, hparts, heq⟩
  · exact heq.symm ▸ h
  have hsound := h.sound.tryPair (k := k) hp
  have hgenuine : D.IsGenuine ⟨k, p.1, p.2, a⟩ := by
    refine ⟨?_, ha, ?_, hk, h.hasBelow.alikeBelow hi hj hnew⟩
    · by_contra hne
      exact Bool.eq_false_iff.mp hnew (h.sound.accepting _ _ hi hj hne)
    · exact h.sound.not_alike _ _ (targetOrSink_le_size _ a) (targetOrSink_le_size _ a) hparts
  constructor
  case sound => exact hsound
  case hasBelow =>
    intro x hx y hy hapart
    exact has_tryPair hp hy (h.hasBelow x hx y hy hapart)
  case genuine =>
    rw [heq]
    exact List.forall_mem_cons.mpr ⟨hgenuine, h.genuine⟩
  case mem_pairs =>
    intro x y hxy hy haccepting hmarked
    rw [heq] at hmarked ⊢
    rw [Marks.has_mark (Nat.lt_succ_of_le hi) (Nat.lt_succ_of_le hj) (Nat.lt_succ_of_le hy)]
      at hmarked
    rcases hmarked with ⟨rfl, rfl⟩ | ⟨rfl, rfl⟩ | hold
    · exact List.mem_cons_self
    · exact absurd hxy (Nat.not_lt_of_lt hij)
    · exact List.mem_cons_of_mem _ (h.mem_pairs x y hxy hy haccepting hold)

theorem Progress.Recorded.pass (h : s.Recorded k) (hk : 0 < k) :
    (D.pass D.targetRows k s).Recorded (k + 1) := by
  have hrecorded : (D.pass D.targetRows k s).Recorded k :=
    List.foldlRecOn (motive := Progress.Recorded k) _ _ h fun _ ht _ hp => ht.tryPair hk hp
  exact { hrecorded with hasBelow := h.sound.hasBelow_pass h.hasBelow k }

/-! ## What the passes come to -/

/-- **The passes end with a record in order, in which no pair is missing**, and the number of passes
is one more than that of the newest split. -/
theorem Passes.exists_recorded (h : D.Passes k s r) (hk : 0 < k) (hs : s.Recorded k)
    (ho : s.InOrder k) : ∃ t : D.Progress, t.Recorded r.passes ∧ t.InOrder r.passes ∧ t.Stable ∧
      r.splits = t.splits.reverse := by
  induction h with
  | @last k s hlen =>
    obtain ⟨heq, hstable⟩ := hs.sound.stable_of_pass hlen
    exact ⟨s, hs, ho, hstable, congrArg (fun t => t.splits.reverse) heq⟩
  | more hlen _ ih => exact ih (Nat.succ_pos _) (hs.pass hk) (ho.pass hlen)

/-- **The pairs with a split are those that some word tells apart, but not the empty one.** -/
theorem Progress.Recorded.mem_pairs_iff (h : s.Recorded k) (hs : s.Stable) :
    (i, j) ∈ s.splits.map Split.pair ↔
      i < j ∧ j ≤ D.size ∧ D.isAccepting i = D.isAccepting j ∧ ¬ D.Alike i j := by
  constructor
  · intro hmem
    obtain ⟨e, he, hpair⟩ := List.mem_map.mp hmem
    obtain ⟨rfl, rfl⟩ := Prod.mk.inj hpair
    obtain ⟨hij, hj⟩ := mem_pairsBelow.mp (h.sound.mem_pairs e he)
    have hj := Nat.le_of_lt_succ hj
    refine ⟨hij, hj, (h.genuine e he).isAccepting_eq, ?_⟩
    exact h.sound.not_alike _ _ (Nat.le_of_lt (Nat.lt_of_lt_of_le hij hj)) hj
      (h.sound.has_split e he)
  · rintro ⟨hij, hj, haccepting, hapart⟩
    refine h.mem_pairs i j hij hj haccepting ?_
    by_contra hnew
    exact hapart (h.sound.alike_of_has_eq_false hs (Nat.le_of_lt (Nat.lt_of_lt_of_le hij hj)) hj
      (Bool.eq_false_iff.mpr hnew))

/-- States that are not alike are told apart by some word. -/
theorem not_alike_iff : ¬ D.Alike i j ↔ ∃ w, D.acceptsFrom i w ≠ D.acceptsFrom j w := not_forall

/-! ## The record of a minimization -/

/-- Of the events of a minimization only the last is of the higher level. -/
theorem events_info (D : Dfa σ) : (D.minimizeTraced .info).events = [D.lastEvent] := by
  have hsplits : (D.refinement.splits.map Event.split).filter
      (fun e => Level.shows .info e.level) = [] := by
    rw [List.filter_eq_nil_iff, List.forall_mem_map]
    exact fun _ _ => Bool.eq_false_iff.mp rfl
  have hlast : [.fixpoint D.refinement.passes, D.lastEvent].filter
      (fun e => Level.shows .info e.level) = [D.lastEvent] := by
    rcases D.lastEvent_eq_or with heq | heq <;> rw [heq] <;> rfl
  change (_ ++ [Event.fixpoint _, D.lastEvent]).filter _ = _
  rw [List.filter_append, hsplits, hlast, List.nil_append]

/-- It says that the automaton is minimal exactly if some word tells any two states apart. -/
theorem lastEvent_eq_minimal_iff : D.lastEvent = .minimal D.size ↔
    ∀ i < D.size, ∀ j < D.size, i ≠ j → ¬ D.Alike i j := by
  have hcount : D.lastEvent = .minimal D.size ↔ D.minimize.classCount = D.size := by
    rw [lastEvent]
    split <;> simp [*]
  rw [hcount, classCount_eq_size_iff]
  exact forall₂_congr fun i _ => forall₂_congr fun j _ => not_imp_not.symm

/-- **The record of a minimization is a faithful trace of it.** The splits are of the pairs of
states, or of a state and the sink, that some word tells apart and of which both accept or none,
each once and in the order of the passes; the symbol of each leads to states that some word tells
apart, and the number of its pass is at least one and no more than the length of any word that tells
the pair apart. The number of passes is one more than that of the last split. What is recorded at
the end is that the automaton is minimal exactly if some word tells any two states apart. -/
theorem events_minimizeTraced (D : Dfa σ) : ∃ (splits : List Split) (passes : Nat) (last : Event),
    (D.minimizeTraced .debug).events = splits.map .split ++ [.fixpoint passes, last] ∧
    (D.minimizeTraced .info).events = [last] ∧
    (∀ i j, (i, j) ∈ splits.map Split.pair ↔ i < j ∧ j ≤ D.size ∧
      D.isAccepting i = D.isAccepting j ∧ ∃ w, D.acceptsFrom i w ≠ D.acceptsFrom j w) ∧
    (splits.map Split.pair).Nodup ∧
    (splits.Pairwise fun e f => e.pass ≤ f.pass) ∧
    (∀ e ∈ splits, e.symbol ∈ D.alphabet ∧
      (∃ w, D.acceptsFrom (D.targetOrSink e.first e.symbol) w ≠
        D.acceptsFrom (D.targetOrSink e.second e.symbol) w) ∧
      1 ≤ e.pass ∧ ∀ w, D.acceptsFrom e.first w ≠ D.acceptsFrom e.second w → e.pass ≤ w.length) ∧
    passes = (splits.getLast?.map Split.pass).getD 0 + 1 ∧
    (last = .minimal D.size ↔ ∀ i < D.size, ∀ j < D.size, i ≠ j →
      ∃ w, D.acceptsFrom i w ≠ D.acceptsFrom j w) := by
  obtain ⟨t, hrecorded, horder, hstable, hsplits⟩ :=
    D.passes_refinement.exists_recorded Nat.one_pos recorded_initialMarks ⟨.nil, rfl⟩
  refine ⟨D.refinement.splits, D.refinement.passes, D.lastEvent, D.events_debug, D.events_info,
    ?_, ?_, ?_, ?_, ?_, ?_⟩
  · intro i j
    rw [hsplits, List.map_reverse, List.mem_reverse, hrecorded.mem_pairs_iff hstable, not_alike_iff]
  · rw [hsplits, List.map_reverse, List.nodup_reverse]
    exact hrecorded.sound.nodup
  · rw [hsplits, List.pairwise_reverse]
    exact horder.pairwise
  · intro e he
    rw [hsplits, List.mem_reverse] at he
    have hgenuine := hrecorded.genuine e he
    refine ⟨hgenuine.symbol_mem, not_alike_iff.mp hgenuine.not_alike, hgenuine.pass_pos, ?_⟩
    intro w hw
    by_contra hlt
    exact hw (hgenuine.alikeBelow w (Nat.lt_of_not_le hlt))
  · rw [hsplits, List.getLast?_reverse]
    exact horder.lastPass_succ.symm
  · simpa only [not_alike_iff] using D.lastEvent_eq_minimal_iff

end Dfa

end FiniteAutomata
