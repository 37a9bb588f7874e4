import FiniteAutomata.Proofs.Dfa.Rows
import FiniteAutomata.Proofs.Minimized.Congruence
import FiniteAutomata.Proofs.Minimized.Live

/-!
# Proofs/Minimized/Completion — a missing move is one to a sink

A completion of an automaton has one more state, which rejects, leads to itself, and takes every
move that was missing (`Dfa.IsCompletion`). It does in each state what the automaton does, and in
the new one what the automaton does in its sink, so the same states are in the same classes
(`IsCompletion.classOf_eq`), and the class of the new state comes after all others unless some state
is dead. `Dfa.minimize_completion` compares the two minimized automata, number by number.
-/

namespace FiniteAutomata

namespace Dfa

variable {σ τ : Type} [Identity σ] [Identity τ] {D : Dfa σ} {P : Dfa τ} {i j c : Nat} {a : Symbol}

/-- **The automaton with one more state**, which rejects, leads to itself, and takes all missing
moves. -/
structure IsCompletion (D : Dfa σ) (P : Dfa τ) : Prop where
  alphabet_eq : P.alphabet = D.alphabet
  size_eq : P.size = D.size + 1
  target_eq : ∀ i < D.size, ∀ a ∈ D.alphabet, P.target i a = some ((D.target i a).getD D.size)
  target_new : ∀ a ∈ D.alphabet, P.target D.size a = some D.size
  isAccepting_eq : ∀ i < D.size, P.isAccepting i = D.isAccepting i
  isAccepting_new : P.isAccepting D.size = false

/-- **Every automaton has a completion.** -/
theorem exists_isCompletion (D : Dfa σ) : ∃ P : Dfa StateSet, D.IsCompletion P := by
  have hlt : ∀ i < D.size + 1, ∀ a j, some (D.targetOrSink i a) = some j → j < D.size + 1 := by
    intro i _ a j hj
    exact Option.some.inj hj ▸ Nat.lt_succ_of_le (targetOrSink_le_size i a)
  have hacc : ∀ c ∈ D.acceptStates, c < D.size + 1 := fun c hc =>
    Nat.lt_succ_of_lt (List.mem_range.mp (List.mem_of_mem_filter hc))
  obtain ⟨P, -, h⟩ := exists_hasTable (A := D.alphabet) (Nat.succ_pos D.size) hlt hacc
  have hiff : ∀ i < D.size + 1, P.isAccepting i = D.isAccepting i := by
    intro i hi
    rw [Bool.eq_iff_iff, h.isAccepting_iff i hi, acceptStates, List.mem_filter, List.mem_range,
      and_iff_right_iff_imp]
    intro hi
    by_contra hge
    rw [isAccepting_of_size_le (Nat.le_of_not_lt hge)] at hi
    nomatch hi
  have hnew : D.size < D.size + 1 := Nat.lt_succ_self _
  refine ⟨P, h.alphabet_eq, h.size_eq, fun i hi a ha => ?_, fun a ha => ?_, fun i hi => ?_, ?_⟩
  · exact h.target_eq i (Nat.lt_succ_of_lt hi) a ha
  · have hnone : D.target D.size a = none := target_of_size_le (Nat.le_refl _)
    rw [h.target_eq _ hnew a ha, targetOrSink_of_none hnone]
    rfl
  · exact hiff i (Nat.lt_succ_of_lt hi)
  · rw [hiff _ hnew, isAccepting_of_size_le (Nat.le_refl _)]

/-- The class of a state or the sink is the one that is kept, or that of the sink if none is. -/
theorem keptClass?_getD (hi : i ≤ D.size) :
    (D.keptClass? i).getD (D.classOf D.sink) = D.classOf i := by
  by_cases hkept : D.classOf i < D.minimize.classCount
  · rw [keptClass?, if_pos hkept]
    rfl
  · have hge : D.size ≤ i := Nat.le_of_not_lt fun hlt => hkept (classOf_lt_classCount hlt)
    obtain rfl : i = D.sink := Nat.le_antisymm hi hge
    rw [keptClass?, if_neg hkept]
    rfl

namespace IsCompletion

variable (h : D.IsCompletion P)

include h

/-! ## Words -/

/-- A state and the sink lead where they lead in the automaton, and to the new state else. -/
theorem targetOrSink_eq (hi : i ≤ D.size) (ha : a ∈ D.alphabet) :
    P.targetOrSink i a = D.targetOrSink i a := by
  rcases Nat.lt_or_eq_of_le hi with hlt | rfl
  · exact targetOrSink_of_some (h.target_eq i hlt a ha)
  · rw [targetOrSink_of_some (h.target_new a ha),
      targetOrSink_of_none (target_of_size_le (Nat.le_refl _))]
    rfl

theorem isAccepting_of_le (hi : i ≤ D.size) : P.isAccepting i = D.isAccepting i := by
  rcases Nat.lt_or_eq_of_le hi with hlt | rfl
  · exact h.isAccepting_eq i hlt
  · rw [h.isAccepting_new, isAccepting_of_size_le (Nat.le_refl _)]

/-- **The same words are accepted**, from the new state those that are from the sink. -/
theorem acceptsFrom_eq (hi : i ≤ D.size) (w : List Symbol) :
    P.acceptsFrom i w = D.acceptsFrom i w := by
  induction w generalizing i with
  | nil => exact h.isAccepting_of_le hi
  | cons a w ih =>
    by_cases ha : a ∈ D.alphabet
    · rw [acceptsFrom_cons (h.alphabet_eq ▸ ha), acceptsFrom_cons ha, h.targetOrSink_eq hi ha]
      exact ih (targetOrSink_le_size i a)
    · rw [acceptsFrom, acceptsFrom, if_neg ha, if_neg (h.alphabet_eq ▸ ha)]

/-! ## Classes -/

/-- **States are in the classes they are in without the new state**, and the new state is in that of
the sink. -/
theorem classOf_eq (hi : i ≤ D.size) : P.classOf i = D.classOf i := by
  refine classOf_congr (Nat.le_refl _) (h.size_eq ▸ Nat.le_succ _) (fun i hi j hj => ?_) hi
  exact forall_congr' fun w => by rw [h.acceptsFrom_eq hi, h.acceptsFrom_eq hj]

theorem lt_size_of_le (hi : i ≤ D.size) : i < P.size := h.size_eq ▸ Nat.lt_succ_of_le hi

/-- The classes that are kept are those kept without the new state, and that of the sink. -/
theorem lt_classCount_iff_or :
    c < P.minimize.classCount ↔ c < D.minimize.classCount ∨ c = D.classOf D.sink := by
  rw [lt_classCount_iff, lt_classCount_iff, h.size_eq]
  constructor
  · rintro ⟨i, hi, rfl⟩
    have hle := Nat.le_of_lt_succ hi
    rw [h.classOf_eq hle]
    rcases Nat.lt_or_eq_of_le hle with hlt | rfl
    · exact .inl ⟨i, hlt, rfl⟩
    · exact .inr rfl
  · rintro (⟨i, hi, rfl⟩ | rfl)
    · exact ⟨i, Nat.lt_succ_of_lt hi, h.classOf_eq (Nat.le_of_lt hi)⟩
    · exact ⟨D.size, Nat.lt_succ_self _, h.classOf_eq (Nat.le_refl _)⟩

theorem take_classAssignment :
    P.minimize.classAssignment.take D.size = D.minimize.classAssignment := by
  rw [classAssignment_minimize, classAssignment_minimize, ← List.map_take, List.take_range,
    h.size_eq, Nat.min_eq_left (Nat.le_succ _)]
  exact List.map_congr_left fun i hi => h.classOf_eq (Nat.le_of_lt (List.mem_range.mp hi))

/-- **A class leads on each symbol to the class of the targets**, be it that of the new state. -/
theorem query_classOf_eq (hi : i ≤ D.size) (ha : a ∈ D.alphabet) :
    P.minimize.query (.int (D.classOf i)) (.text a) =
      .ok (some (D.classOf (D.targetOrSink i a))) := by
  have hlt := h.lt_size_of_le hi
  have hquery := query_classOf (Nat.le_of_lt hlt) (classOf_lt_classCount hlt) (h.alphabet_eq ▸ ha)
  have hle := targetOrSink_le_size (D := D) i a
  rw [h.targetOrSink_eq hi ha, keptClass?_of_lt (h.lt_size_of_le hle), h.classOf_eq hi,
    h.classOf_eq hle] at hquery
  exact hquery

/-- **A move of a class stays, and a missing one becomes one to the class of the sink.** -/
theorem query_eq {o : Option Nat} (hc : c < D.minimize.classCount) (ha : a ∈ D.alphabet)
    (ho : D.minimize.query (.int c) (.text a) = .ok o) :
    P.minimize.query (.int c) (.text a) = .ok (some (o.getD (D.classOf D.sink))) := by
  obtain ⟨i, hi, rfl⟩ := lt_classCount_iff.mp hc
  rw [query_classOf (Nat.le_of_lt hi) hc ha] at ho
  rw [h.query_classOf_eq (Nat.le_of_lt hi) ha, ← Except.ok.inj ho,
    keptClass?_getD (targetOrSink_le_size i a)]

/-- A class accepts if its members do, and that of the new state does not. -/
theorem mem_accepting_iff (hi : i ≤ D.size) :
    D.classOf i ∈ P.minimize.accepting ↔ D.isAccepting i = true := by
  have hlt := h.lt_size_of_le hi
  have hmem := classOf_mem_accepting (Nat.le_of_lt hlt) (classOf_lt_classCount hlt)
  rwa [h.classOf_eq hi, h.isAccepting_of_le hi] at hmem

/-- **The same classes accept.** -/
theorem accepting_eq : P.minimize.accepting = D.minimize.accepting := by
  refine P.wellFormed_minimize.ascending.eq_of_mem_iff D.wellFormed_minimize.ascending fun c => ?_
  by_cases hc : c < D.minimize.classCount
  · obtain ⟨i, hi, rfl⟩ := lt_classCount_iff.mp hc
    rw [h.mem_accepting_iff (Nat.le_of_lt hi), classOf_mem_accepting (Nat.le_of_lt hi) hc]
  · refine iff_of_false (fun hacc => ?_) fun hacc => hc (D.wellFormed_minimize.accepting_lt c hacc)
    have hlt := P.wellFormed_minimize.accepting_lt c hacc
    obtain rfl := (h.lt_classCount_iff_or.mp hlt).resolve_left hc
    have htrue := (h.mem_accepting_iff (Nat.le_refl D.size)).mp hacc
    rw [isAccepting_of_size_le (Nat.le_refl _)] at htrue
    nomatch htrue

/-! ## With a dead state -/

/-- **If some state is dead, its class takes the new state in.** -/
theorem classCount_of_dead (hdead : ∃ i < D.size, D.Dead i) :
    P.minimize.classCount = D.minimize.classCount := by
  have hsink := classOf_sink_lt_iff.mpr hdead
  have hcount := h.lt_classCount_iff_or (c := D.minimize.classCount)
  have hcount' := h.lt_classCount_iff_or (c := P.minimize.classCount)
  omega

theorem rows_of_dead (hdead : ∃ i < D.size, D.Dead i) :
    P.minimize.rows = D.minimize.rows := by
  have hcount := h.classCount_of_dead hdead
  refine P.wellFormed_minimize.rows_eq D.wellFormed_minimize h.alphabet_eq hcount ?_
  intro c hc a ha
  obtain ⟨i, hi, rfl⟩ := lt_classCount_iff.mp (hcount ▸ hc)
  have ha' : a ∈ D.alphabet := h.alphabet_eq ▸ ha
  have hkept : D.classOf (D.targetOrSink i a) < D.minimize.classCount := by
    rcases Nat.lt_or_eq_of_le (targetOrSink_le_size (D := D) i a) with hlt | heq
    · exact classOf_lt_classCount hlt
    · rw [heq]
      exact classOf_sink_lt_iff.mpr hdead
  rw [h.query_classOf_eq (Nat.le_of_lt hi) ha', query_classOf (Nat.le_of_lt hi) (hcount ▸ hc) ha',
    keptClass?, if_pos hkept]

/-! ## Without dead states -/

section NotDead

variable (hlive : ¬ ∃ i < D.size, D.Dead i)

include hlive

/-- **If no state is dead, the class of the new state is one more, and the last.** -/
theorem classCount_of_not_dead : P.minimize.classCount = D.minimize.classCount + 1 ∧
    D.classOf D.sink = D.minimize.classCount := by
  have hsink : ¬ D.classOf D.sink < D.minimize.classCount := fun hlt =>
    hlive (classOf_sink_lt_iff.mp hlt)
  have hlast := h.lt_classCount_iff_or (c := D.classOf D.sink)
  have hcount := h.lt_classCount_iff_or (c := D.minimize.classCount)
  have hnext := h.lt_classCount_iff_or (c := D.minimize.classCount + 1)
  omega

/-- The last class leads to itself. -/
theorem query_last (ha : a ∈ D.alphabet) :
    P.minimize.query (.int D.minimize.classCount) (.text a) = .ok (some D.minimize.classCount) := by
  have hsink := (h.classCount_of_not_dead hlive).2
  have hnone : D.target D.sink a = none := target_of_size_le (Nat.le_refl _)
  have hquery := h.query_classOf_eq (i := D.sink) (Nat.le_refl _) ha
  rwa [targetOrSink_of_none hnone, hsink] at hquery

/-- **Each class keeps its row, but for missing moves**, and the last class leads to itself. -/
theorem rows_of_not_dead : P.minimize.rows =
    (D.minimize.rows.map fun row =>
      row.map fun e => (e.1, some (e.2.getD D.minimize.classCount))) ++
    [D.alphabet.symbols.map fun a => (.text a, some D.minimize.classCount)] := by
  obtain ⟨hcount, hsink⟩ := h.classCount_of_not_dead hlive
  have halphabet : P.minimize.alphabet = D.alphabet := h.alphabet_eq
  choose! t _ ht _ using fun (c : Nat) (hc : c < D.minimize.classCount) =>
    D.wellFormed_minimize.exists_targets hc
  have htargets : ∀ c < P.minimize.classCount, ∀ a ∈ P.minimize.alphabet,
      P.minimize.query (.int c) (.text a) =
        .ok (some (if c < D.minimize.classCount then (t c a).getD D.minimize.classCount
          else D.minimize.classCount)) := by
    intro c hc a ha
    rw [halphabet] at ha
    by_cases hlt : c < D.minimize.classCount
    · rw [if_pos hlt, h.query_eq hlt ha (ht c hlt a ha), hsink]
    · obtain rfl : c = D.minimize.classCount := by omega
      rw [if_neg hlt, h.query_last hlive ha]
  rw [P.wellFormed_minimize.rows_eq_map htargets, D.wellFormed_minimize.rows_eq_map ht, halphabet,
    hcount, List.range_succ, List.map_append, List.map_map, List.map_singleton]
  refine congrArg₂ (· ++ ·) (List.map_congr_left fun c hc => ?_) (congrArg (fun row => [row]) ?_)
  · simp only [if_pos (List.mem_range.mp hc), Function.comp_apply, List.map_map]
    rfl
  · simp only [if_neg (Nat.lt_irrefl _)]

end NotDead

end IsCompletion

/-- **A missing move does what a move to a sink does.** Every automaton has a completion, and when
that is minimized, the states are in the same classes and the same classes accept. If some state of
the automaton accepts no word, there are no more classes, and no missing moves; otherwise the new
state makes up one more class, the last, which leads to itself and to which all missing moves lead.
-/
theorem minimize_completion (D : Dfa σ) : (∃ P : Dfa StateSet, D.IsCompletion P) ∧
    ∀ {τ : Type} [Identity τ] (P : Dfa τ), D.IsCompletion P →
      P.minimize.classAssignment.take D.size = D.minimize.classAssignment ∧
      P.minimize.accepting = D.minimize.accepting ∧
      ((∃ i < D.size, D.Dead i) →
        P.minimize.classCount = D.minimize.classCount ∧ P.minimize.rows = D.minimize.rows) ∧
      ((¬ ∃ i < D.size, D.Dead i) →
        P.minimize.classCount = D.minimize.classCount + 1 ∧
        P.minimize.classAssignment[D.size]? = some D.minimize.classCount ∧
        P.minimize.rows =
          (D.minimize.rows.map fun row =>
            row.map fun e => (e.1, some (e.2.getD D.minimize.classCount))) ++
          [D.alphabet.symbols.map fun a => (.text a, some D.minimize.classCount)]) := by
  refine ⟨D.exists_isCompletion, fun P h => ⟨h.take_classAssignment, h.accepting_eq,
    fun hdead => ⟨h.classCount_of_dead hdead, h.rows_of_dead hdead⟩, fun hlive => ?_⟩⟩
  obtain ⟨hcount, hsink⟩ := h.classCount_of_not_dead hlive
  refine ⟨hcount, getElem?_classAssignment.mpr ⟨h.lt_size_of_le (Nat.le_refl _), ?_⟩,
    h.rows_of_not_dead hlive⟩
  exact (h.classOf_eq (Nat.le_refl _)).trans hsink

/-! ## One state without moves -/

/-- One state that accepts and leads nowhere. -/
def halt : Dfa StateSet where
  alphabet := ⟨["h"], by decide, by decide, by decide⟩
  states := [⟨.singleton 0, [("h", none)]⟩]
  accepting := .singleton 0
  nonempty := by decide
  states_fit q hq := by
    obtain rfl := List.mem_singleton.mp hq
    exact ⟨List.Perm.refl _, by simp⟩

/-- Its move leads to one more state, which leads to itself. -/
def haltThenLoop : Dfa StateSet where
  alphabet := halt.alphabet
  states := [⟨.singleton 0, [("h", some 1)]⟩, ⟨.singleton 1, [("h", some 1)]⟩]
  accepting := .singleton 0
  nonempty := by decide
  states_fit q hq := by
    rcases List.mem_pair.mp hq with rfl | rfl <;> exact ⟨List.Perm.refl _, by simp⟩

theorem isCompletion_haltThenLoop : halt.IsCompletion haltThenLoop where
  alphabet_eq := rfl
  size_eq := rfl
  target_eq i hi a ha := by
    obtain rfl : i = 0 := Nat.lt_one_iff.mp hi
    obtain rfl : a = "h" := List.mem_singleton.mp ha
    rfl
  target_new a ha := by
    obtain rfl : a = "h" := List.mem_singleton.mp ha
    rfl
  isAccepting_eq i hi := by
    obtain rfl : i = 0 := Nat.lt_one_iff.mp hi
    rfl
  isAccepting_new := rfl

theorem minimize_completion_halt : halt.IsCompletion haltThenLoop ∧
    (¬ ∃ i < halt.size, halt.Dead i) ∧
    haltThenLoop.minimize.classCount = halt.minimize.classCount + 1 ∧
    haltThenLoop.minimize.accepting = halt.minimize.accepting := by
  have hlive : ¬ ∃ i < halt.size, halt.Dead i := by
    rintro ⟨i, hi, hdead⟩
    obtain rfl : i = 0 := Nat.lt_one_iff.mp hi
    exact absurd (hdead []) (by decide)
  obtain ⟨-, haccepting, -, hmore⟩ :=
    (minimize_completion halt).2 haltThenLoop isCompletion_haltThenLoop
  exact ⟨isCompletion_haltThenLoop, hlive, (hmore hlive).1, haccepting⟩

end Dfa

end FiniteAutomata
