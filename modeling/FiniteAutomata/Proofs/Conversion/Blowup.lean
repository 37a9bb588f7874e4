import FiniteAutomata.Proofs.Conversion.Limit
import FiniteAutomata.Proofs.Minimized.Idempotent
import FiniteAutomata.Proofs.Subset.Order
import Mathlib.Data.Finset.Powerset

/-!
# Proofs/Conversion/Blowup — automata whose deterministic form is exponentially larger

An automaton over two symbols that looks back (`Nfa.LooksBack`) guesses of the first symbol that it
is the `k`-th from the end, and counts the symbols that follow. So the set that a word leads to
tells which of the last `k` symbols are that one (`LooksBack.mem_reach_iff`). Any of these places
may hold it, whence there are `2 ^ k` sets (`LooksBack.wordSets_eq_image`). Symbols that follow move
any place to the `k`-th from the end, where the symbol decides acceptance, so these sets are all
told apart (`LooksBack.eq_of_alike`).
-/

namespace FiniteAutomata

/-! ## Places from the end of a word -/

/-- **Which of the last `k` symbols are `c`**, counted from the end of the word. -/
def marks (c : Symbol) (k : Nat) (w : List Symbol) : Finset Nat :=
  (Finset.range k).filter fun j => w.reverse[j]? = some c

variable {c d : Symbol} {k j n : Nat} {a : Symbol} {w v : List Symbol}

theorem mem_marks : j ∈ marks c k w ↔ j < k ∧ w.reverse[j]? = some c := by
  simp [marks]

@[simp] theorem marks_nil : marks c k [] = ∅ := by
  ext j
  simp [mem_marks]

/-- The last symbol stands at place zero. -/
theorem zero_mem_marks_concat : 0 ∈ marks c k (w ++ [a]) ↔ 0 < k ∧ a = c := by
  simp [mem_marks]

/-- The symbols before it stand one place further than they did. -/
theorem succ_mem_marks_concat : j + 1 ∈ marks c k (w ++ [a]) ↔ j + 1 < k ∧ j ∈ marks c k w := by
  simp only [mem_marks, List.reverse_append, List.reverse_singleton, List.singleton_append,
    List.getElem?_cons_succ]
  exact and_congr_right fun hj => (and_iff_right (Nat.lt_of_succ_lt hj)).symm

/-- Symbols that follow move a place away from the end. -/
theorem add_mem_marks_append (hj : n + j < k) :
    n + j ∈ marks c k (w ++ List.replicate n d) ↔ j ∈ marks c k w := by
  have hget : (w ++ List.replicate n d).reverse[n + j]? = w.reverse[j]? := by
    rw [List.reverse_append, List.reverse_replicate, List.getElem?_append_right (by simp)]
    simp
  rw [mem_marks, mem_marks, hget, and_iff_right hj, and_iff_right (by omega)]

/-- A word with `c` at each of some places, and `d` at the others. -/
def withMarks (c d : Symbol) (k : Nat) (A : Finset Nat) : List Symbol :=
  ((List.range k).map fun j => if j ∈ A then c else d).reverse

theorem marks_withMarks {A : Finset Nat} (hne : d ≠ c) (hA : A ⊆ Finset.range k) :
    marks c k (withMarks c d k A) = A := by
  ext j
  rw [mem_marks, withMarks, List.reverse_reverse, List.getElem?_map]
  by_cases hj : j < k
  · simp [hj, hne]
  · have hnot : j ∉ A := fun hmem => hj (Finset.mem_range.mp (hA hmem))
    simp [hj, hnot]

namespace Nfa

variable {N : Nfa} {x : State}

/-- **The automaton looks `k` symbols back for `c`.** It stays in its first state on both its
symbols, and on `c` also goes to the second; from there each symbol leads one state further, up to
the last, which alone accepts. -/
structure LooksBack (N : Nfa) (c d : Symbol) (k : Nat) : Prop where
  stateCount_eq : N.stateCount = k + 1
  symbols_eq : N.alphabet.symbols = [c, d]
  start_eq : N.start = 0
  accepting_eq : N.accepting = .singleton k
  query_marked : N.query 0 (.symbol c) = .ofList [0, 1]
  query_other : N.query 0 (.symbol d) = .singleton 0
  query_next : ∀ s : Nat, 1 ≤ s → s < k → ∀ a ∈ N.alphabet,
    N.query s (.symbol a) = .singleton (s + 1)
  query_last : ∀ a, N.query k (.symbol a) = ∅
  query_epsilon : ∀ s, N.query s .epsilon = ∅

namespace LooksBack

variable (h : N.LooksBack c d k)

include h

theorem mem_alphabet_iff : a ∈ N.alphabet ↔ a = c ∨ a = d := by
  rw [← Alphabet.mem_symbols, h.symbols_eq, List.mem_pair]

theorem ne : d ≠ c := by
  have hnodup := N.alphabet.nodup
  rw [h.symbols_eq] at hnodup
  simpa [eq_comm] using hnodup

/-- There is a second state to go to. -/
theorem pos : 0 < k := by
  have hmem : (1 : State) ∈ N.query 0 (.symbol c) := by
    rw [h.query_marked]
    decide
  have hlt : (1 : Int) < (k + 1 : Nat) := h.stateCount_eq ▸ (inRange_of_mem_query hmem).2.2
  omega

/-! ### Moves -/

theorem mem_query_zero (ha : a ∈ N.alphabet) :
    x ∈ N.query 0 (.symbol a) ↔ x = 0 ∨ a = c ∧ x = 1 := by
  rcases h.mem_alphabet_iff.mp ha with rfl | rfl
  · simp [h.query_marked]
  · simp [h.query_other, h.ne]

theorem mem_query_succ (hj : j < k) (ha : a ∈ N.alphabet) :
    x ∈ N.query (j + 1) (.symbol a) ↔ j + 1 < k ∧ x = j + 1 + 1 := by
  rcases Nat.lt_or_eq_of_le (Nat.succ_le_of_lt hj) with hlt | heq
  · have hnext := h.query_next (j + 1) (Nat.succ_pos j) hlt a ha
    push_cast at hnext
    rw [hnext, StateSet.mem_singleton, and_iff_right hlt]
  · have hlast : N.query (j + 1) (.symbol a) = ∅ := by
      rw [← h.query_last a, ← heq]
      rfl
    rw [hlast, ← heq]
    simp

theorem path_nil_iff {s : State} : N.Path s [] x ↔ x = s := by
  refine ⟨fun hpath => ?_, fun hx => hx ▸ .done x⟩
  cases hpath with
  | done => rfl
  | skip ht hr _ =>
    have hmem := target_mem_query ht hr
    rw [h.query_epsilon] at hmem
    exact absurd hmem (StateSet.notMem_empty _)

/-- **One more symbol leads where a state of the set has a move.** -/
theorem mem_reach_concat : x ∈ N.reach (w ++ [a]) ↔ ∃ s ∈ N.reach w, x ∈ N.query s (.symbol a) := by
  rw [reach_concat, mem_step (isClosed_reach w)]
  refine exists_congr fun s => and_congr_right fun _ => ?_
  simp only [Path.singleton_iff, h.path_nil_iff, mem_query]
  exact exists_congr fun t => and_congr_right fun _ => and_congr_right fun _ =>
    and_congr Iff.rfl eq_comm

/-! ### Sets of states -/

/-- **A word leads to the first state, and to a state for each `c` among its last symbols.** By
induction from the end of the word: a `c` that is read stands at place zero, and all others are one
place further. -/
theorem mem_reach_iff (hw : ∀ a ∈ w, a ∈ N.alphabet) :
    x ∈ N.reach w ↔ x = 0 ∨ ∃ j ∈ marks c k w, x = j + 1 := by
  induction w using List.reverseRecOn generalizing x with
  | nil =>
    have hstart : x ∈ N.startSet ↔ x = N.start := by
      simp [startSet, mem_closure, h.path_nil_iff]
    rw [reach_nil, hstart, h.start_eq]
    simp
  | append_singleton w a ih =>
    obtain ⟨hw, ha⟩ := List.forall_mem_append.mp hw
    have ha := ha a (List.mem_singleton_self a)
    have hold : x ∈ N.reach (w ++ [a]) ↔
        x ∈ N.query 0 (.symbol a) ∨ ∃ j ∈ marks c k w, x ∈ N.query (j + 1) (.symbol a) := by
      simp only [h.mem_reach_concat, ih hw, or_and_right, exists_or, exists_eq_left]
      simp only [← exists_and_right, and_assoc, exists_comm (α := State), exists_eq_left,
        exists_and_left]
    have hlater : (∃ j ∈ marks c k w, x ∈ N.query (j + 1) (.symbol a)) ↔
        ∃ j : Nat, j + 1 ∈ marks c k (w ++ [a]) ∧ x = j + 1 + 1 := by
      refine exists_congr fun j => ?_
      rw [succ_mem_marks_concat, and_comm (a := j + 1 < k), and_assoc]
      exact and_congr_right fun hj => h.mem_query_succ (mem_marks.mp hj).1 ha
    have hzero : 0 ∈ marks c k (w ++ [a]) ↔ a = c :=
      zero_mem_marks_concat.trans (and_iff_right h.pos)
    have hboth := Nat.or_exists_add_one (p := fun j => j ∈ marks c k (w ++ [a]) ∧ x = j + 1)
    push_cast at hboth
    rw [hold, hlater, h.mem_query_zero ha, ← hboth, hzero, or_assoc]

theorem zero_mem_reach (hw : ∀ a ∈ w, a ∈ N.alphabet) : (0 : State) ∈ N.reach w :=
  (h.mem_reach_iff hw).mpr (.inl rfl)

/-- The state for a place is in the set if `c` stands at that place. -/
theorem succ_mem_reach_iff (hw : ∀ a ∈ w, a ∈ N.alphabet) :
    (j + 1 : State) ∈ N.reach w ↔ j ∈ marks c k w := by
  rw [h.mem_reach_iff hw]
  constructor
  · rintro (hzero | ⟨i, hi, heq⟩)
    · exact absurd hzero (Nat.cast_add_one_ne_zero j)
    · obtain rfl := Int.ofNat.inj (add_right_cancel heq)
      exact hi
  · exact fun hj => .inr ⟨j, hj, rfl⟩

/-- **The sets that two words lead to are equal if the words have `c` at the same places.** -/
theorem reach_eq_iff (hw : ∀ a ∈ w, a ∈ N.alphabet) (hv : ∀ a ∈ v, a ∈ N.alphabet) :
    N.reach w = N.reach v ↔ marks c k w = marks c k v := by
  constructor
  · intro heq
    ext j
    rw [← h.succ_mem_reach_iff hw, heq, h.succ_mem_reach_iff hv]
  · intro heq
    refine StateSet.ext fun x => ?_
    rw [h.mem_reach_iff hw, heq, h.mem_reach_iff hv]

/-- A word is accepted if its `k`-th symbol from the end is `c`. -/
theorem accepts_iff (hw : ∀ a ∈ w, a ∈ N.alphabet) :
    N.accepts w = true ↔ k - 1 ∈ marks c k w := by
  have hk : ((k - 1 : Nat) : State) + 1 = k :=
    congrArg Int.ofNat (Nat.sub_add_cancel h.pos)
  rw [accepts_iff_reach, and_iff_right hw, StateSet.meets_iff, h.accepting_eq,
    ← h.succ_mem_reach_iff hw, hk]
  simp

/-! ### Counting the sets -/

theorem mem_alphabet_of_mem_withMarks {A : Finset Nat} :
    ∀ a ∈ withMarks c d k A, a ∈ N.alphabet := by
  intro a ha
  obtain ⟨j, -, rfl⟩ := List.mem_map.mp (List.mem_reverse.mp ha)
  rw [h.mem_alphabet_iff]
  split
  · exact .inl rfl
  · exact .inr rfl

/-- **Each choice of places gives one of the sets**, and there are no others. -/
theorem wordSets_eq_image : N.wordSets =
    (fun A => N.reach (withMarks c d k A)) '' ((Finset.range k).powerset : Set (Finset Nat)) := by
  ext S
  constructor
  · rintro ⟨-, w, hw, hS⟩
    obtain rfl := reaches_iff.mp hS
    have hsub : marks c k w ⊆ Finset.range k := Finset.filter_subset _ _
    refine ⟨marks c k w, Finset.mem_coe.mpr (Finset.mem_powerset.mpr hsub), ?_⟩
    exact (h.reach_eq_iff h.mem_alphabet_of_mem_withMarks hw).mpr
      (marks_withMarks h.ne hsub)
  · rintro ⟨A, -, rfl⟩
    have hword := h.mem_alphabet_of_mem_withMarks (A := A)
    refine ⟨fun hempty => ?_, _, hword, reaches_reach _⟩
    exact StateSet.notMem_empty 0 (hempty ▸ h.zero_mem_reach hword)

/-- **Words lead to `2 ^ k` sets.** -/
theorem ncard_wordSets_eq : N.wordSets.ncard = 2 ^ k := by
  have hinj : Set.InjOn (fun A => N.reach (withMarks c d k A))
      ((Finset.range k).powerset : Set (Finset Nat)) := by
    intro A hA B hB heq
    have hmarks := (h.reach_eq_iff h.mem_alphabet_of_mem_withMarks
      h.mem_alphabet_of_mem_withMarks).mp heq
    rwa [marks_withMarks h.ne (Finset.mem_powerset.mp hA),
      marks_withMarks h.ne (Finset.mem_powerset.mp hB)] at hmarks
  calc
    N.wordSets.ncard = (Finset.range k).powerset.card := by
      rw [h.wordSets_eq_image, hinj.ncard_image, Set.ncard_coe_finset]
    _ = 2 ^ k := by rw [Finset.card_powerset, Finset.card_range]

/-! ### Telling the sets apart -/

/-- The word of `d` that moves a place to the `k`-th from the end tells whether `c` is there. -/
theorem accepts_append_iff (hw : ∀ a ∈ w, a ∈ N.alphabet) (hj : j < k) :
    N.accepts (w ++ List.replicate (k - 1 - j) d) = true ↔ j ∈ marks c k w := by
  have hword : ∀ a ∈ w ++ List.replicate (k - 1 - j) d, a ∈ N.alphabet := by
    refine List.forall_mem_append.mpr ⟨hw, fun a ha => ?_⟩
    exact h.mem_alphabet_iff.mpr (.inr (List.eq_of_mem_replicate ha))
  have hlast : k - 1 - j + j = k - 1 := by omega
  have hplace := add_mem_marks_append (c := c) (d := d) (w := w) (show k - 1 - j + j < k by omega)
  rw [hlast] at hplace
  rw [h.accepts_iff hword, hplace]

variable {D : Dfa StateSet} (hD : N.IsSubsetAutomaton D)

include hD

/-- **No two states of the deterministic form are alike.** -/
theorem eq_of_alike : ∀ i < D.size, ∀ i' < D.size, D.Alike i i' → i = i' := by
  intro i hi i' hi' halike
  have hword : ∀ i < D.size, ∃ w, (∀ a ∈ w, a ∈ N.alphabet) ∧
      D.identities[i]? = some (N.reach w) := by
    intro i hi
    have hlt : i < D.identities.length := D.length_identities.symm ▸ hi
    have hget := List.getElem?_eq_getElem hlt
    obtain ⟨w, hw, heq⟩ := hD.explored.exists_word hget
    exact ⟨w, hw, heq ▸ hget⟩
  have haccepts : ∀ {i : Nat} {w : List Symbol}, (∀ a ∈ w, a ∈ N.alphabet) →
      D.identities[i]? = some (N.reach w) → ∀ u, D.acceptsFrom i u = N.accepts (w ++ u) := by
    intro i w hw hget u
    have hrun := (hD.run_eq_some_iff hw).mpr hget
    rw [← hD.accepts_eq]
    exact (Dfa.acceptsFrom_append (hD.alphabet_eq ▸ hw) hrun u).symm
  obtain ⟨w, hw, hget⟩ := hword i hi
  obtain ⟨v, hv, hget'⟩ := hword i' hi'
  have hmarks : marks c k w = marks c k v := by
    ext j
    by_cases hj : j < k
    · rw [← h.accepts_append_iff hw hj, ← h.accepts_append_iff hv hj,
        ← haccepts hw hget, ← haccepts hv hget', halike]
    · exact iff_of_false (fun hmem => hj (mem_marks.mp hmem).1)
        fun hmem => hj (mem_marks.mp hmem).1
  rw [(h.reach_eq_iff hw hv).mpr hmarks] at hget
  exact hD.eq_of_getElem? hget hget'

end LooksBack

/-! ## The family -/

/-- A number below the number of states is a state. -/
theorem inRange_natCast {i : Nat} (h : i < n) : InRange n i :=
  ⟨Int.natCast_nonneg i, Int.ofNat_lt.mpr h⟩

/-- The move on every symbol from one state to the next. -/
def nextMove (A : Alphabet) (i : Nat) : Transition :=
  ⟨(i + 1 : Nat), (i + 2 : Nat), A.symbols, A.epsilon_notMem⟩

/-- The automaton that looks `m + 1` symbols back for the first symbol of an alphabet. -/
def lookingBack (A : Alphabet) (m : Nat) : Nfa where
  stateCount := m + 2
  alphabet := A
  transitions := ⟨0, 0, A.symbols, A.epsilon_notMem⟩ ::
    ⟨0, 1, A.symbols.take 1, fun h => A.epsilon_notMem (List.mem_of_mem_take h)⟩ ::
    (List.range m).map (nextMove A)
  start := 0
  accepting := .singleton (m + 1 : Nat)
  start_inRange := inRange_natCast (Nat.succ_pos _)
  accepting_inRange s hs := by
    obtain rfl := StateSet.mem_singleton.mp hs
    exact inRange_natCast (Nat.lt_succ_self _)
  transitions_fit t ht := by
    have hzero : InRange (m + 2) 0 := inRange_natCast (Nat.succ_pos _)
    have hone : InRange (m + 2) 1 := inRange_natCast (i := 1) (by omega)
    rcases List.mem_cons.mp ht with rfl | ht
    · exact ⟨hzero, hzero, fun a ha => ha⟩
    · rcases List.mem_cons.mp ht with rfl | ht
      · exact ⟨hzero, hone, fun a ha => List.mem_of_mem_take ha⟩
      · obtain ⟨i, hi, rfl⟩ := List.mem_map.mp ht
        have hlt := List.mem_range.mp hi
        exact ⟨inRange_natCast (by omega), inRange_natCast (by omega), fun a ha => ha⟩

section Moves

variable {A : Alphabet} {m i : Nat} {s : State} {l : Label} (hA : A.symbols = [c, d])

include hA

/-- What a state leads to, read off the listed transitions. -/
theorem mem_query_lookingBack : x ∈ (lookingBack A m).query s l ↔
    (l = .symbol c ∨ l = .symbol d) ∧ 0 = s ∧ 0 = x ∨ l = .symbol c ∧ 0 = s ∧ 1 = x ∨
      ∃ i < m, (l = .symbol c ∨ l = .symbol d) ∧ ((i + 1 : Nat) : State) = s ∧
        ((i + 2 : Nat) : State) = x := by
  simp only [mem_query, lookingBack, nextMove, List.exists_mem_cons_iff, List.mem_map,
    List.mem_range]
  cases l <;> simp [Transition.Reads, hA]

theorem mem_query_lookingBack_zero : x ∈ (lookingBack A m).query 0 (.symbol a) ↔
    (a = c ∨ a = d) ∧ x = 0 ∨ a = c ∧ x = 1 := by
  have hno : ∀ j : Nat, ((j + 1 : Nat) : State) ≠ 0 := fun j => Nat.cast_add_one_ne_zero j
  simp only [mem_query_lookingBack hA, Label.symbol.injEq, hno, false_and, and_false,
    exists_false, or_false, true_and, eq_comm (b := x)]

theorem mem_query_lookingBack_succ : x ∈ (lookingBack A m).query (i + 1 : Nat) (.symbol a) ↔
    i < m ∧ (a = c ∨ a = d) ∧ x = (i + 2 : Nat) := by
  have hno : (0 : State) ≠ (i + 1 : Nat) := (Nat.cast_add_one_ne_zero i).symm
  simp only [mem_query_lookingBack hA, Label.symbol.injEq, hno, false_and, and_false, false_or,
    Nat.cast_inj, Nat.add_right_cancel_iff, eq_comm (b := x)]
  constructor
  · rintro ⟨j, hj, ha, rfl, hx⟩
    exact ⟨hj, ha, hx⟩
  · rintro ⟨hi, ha, hx⟩
    exact ⟨i, hi, ha, rfl, hx⟩

theorem looksBack_lookingBack (m : Nat) : (lookingBack A m).LooksBack c d (m + 1) where
  stateCount_eq := rfl
  symbols_eq := hA
  start_eq := rfl
  accepting_eq := rfl
  query_marked := StateSet.ext fun x => by simp [mem_query_lookingBack_zero hA]
  query_other := StateSet.ext fun x => by
    have hne : d ≠ c := by
      have hnodup := A.nodup
      rw [hA] at hnodup
      simpa [eq_comm] using hnodup
    simp [mem_query_lookingBack_zero hA, hne]
  query_next s hs hlt a ha := by
    obtain ⟨i, rfl⟩ := Nat.exists_eq_add_of_le' hs
    have ha : a = c ∨ a = d := List.mem_pair.mp (hA ▸ ha)
    refine StateSet.ext fun x => ?_
    rw [mem_query_lookingBack_succ hA, and_iff_right (by omega), and_iff_right ha,
      StateSet.mem_singleton]
    rfl
  query_last a := StateSet.ext fun x => by
    rw [mem_query_lookingBack_succ hA]
    simp
  query_epsilon s := StateSet.ext fun x => by simp [mem_query_lookingBack hA]

end Moves

/-- **The subset construction can grow exponentially, and then nothing merges.** Over any two
symbols there is, for each `k` from one on, an automaton of `k + 1` states that looks `k` symbols
back, and whichever it is, its deterministic form has `2 ^ k` states. The first state is in the
identity of each of them, minimization leaves each in a class of its own, and the limits that are
exceeded are those below; one of these that is too long to be written is refused without its being
named. What is recorded makes no difference to this, but at the least level the table of the
construction has to be drawn. -/
theorem toDfa_looksBack {A : Alphabet} {c d : Symbol} {k : Nat} (hA : A.symbols = [c, d])
    (hk : 1 ≤ k) : (∃ N : Nfa, N.LooksBack c d k) ∧
    ∀ N : Nfa, N.LooksBack c d k → ∃ D, N.toDfa .null = .ok D ∧ D.size = 2 ^ k ∧
      (∀ S ∈ D.identities, (0 : State) ∈ S) ∧
      D.minimize.classCount = 2 ^ k ∧ D.minimize.classAssignment = List.range (2 ^ k) ∧
      (∀ m : Int, N.toDfa (.int m) = if m < 2 ^ k then .error (pastLimit m) else .ok D) ∧
      (∀ (l : Level) (m : Int), N.toDfaTraced l (.int m) =
        if m < 2 ^ k then ⟨.error (pastLimit m), []⟩ else N.toDfaTraced l .null) ∧
      ∀ l : Level, (N.toDfaTraced l .null).outcome = .ok D ↔ (l = .debug → D.HasSubsetTable) := by
  refine ⟨?_, fun N h => ?_⟩
  · obtain ⟨m, rfl⟩ := Nat.exists_eq_add_of_le' hk
    exact ⟨lookingBack A m, looksBack_lookingBack hA m⟩
  · obtain ⟨D, hD, hsubset⟩ := N.exists_toDfa
    have hsize : D.size = 2 ^ k := hsubset.ncard_wordSets.symm.trans h.ncard_wordSets_eq
    have hdistinct := h.eq_of_alike hsubset
    refine ⟨D, hD, hsize, fun S hS => ?_, ?_, ?_, fun m => ?_, fun l m => ?_,
      outcome_toDfaTraced_null_iff hD⟩
    · obtain ⟨-, w, hw, hreaches⟩ := hsubset.mem_identities_iff.mp hS
      obtain rfl := reaches_iff.mp hreaches
      exact h.zero_mem_reach hw
    · rw [Dfa.classCount_eq_size hdistinct, hsize]
    · rw [Dfa.classAssignment_eq_range hdistinct, hsize]
    · have hlimit := toDfa_int hD m
      rw [hsize, capped] at hlimit
      exact_mod_cast hlimit
    · have htraced := toDfaTraced_int hD l m
      rw [hsize] at htraced
      exact_mod_cast htraced

/-- Two letters. -/
def letters : Alphabet := ⟨["a", "b"], by decide, by decide, by decide⟩

/-- A symbol that is spelled like a heading, and a letter. -/
def headingAndLetter : Alphabet := ⟨["NFA STATE", "b"], by decide, by decide, by decide⟩

theorem toDfa_looksBack_three : letters.symbols = ["a", "b"] ∧ 1 ≤ 3 ∧
    (lookingBack letters 2).LooksBack "a" "b" 3 ∧
    ∃ D, (lookingBack letters 2).toDfa .null = .ok D ∧ D.size = 8 ∧
      (lookingBack letters 2).toDfa (.int 7) = .error (.stateLimit (.int 7)) := by
  have hlooks : (lookingBack letters 2).LooksBack "a" "b" 3 := looksBack_lookingBack rfl 2
  obtain ⟨-, hall⟩ := toDfa_looksBack (A := letters) rfl (show 1 ≤ 3 by decide)
  obtain ⟨D, hD, hsize, -, -, -, hlimit, -⟩ := hall _ hlooks
  refine ⟨rfl, by decide, hlooks, D, hD, hsize, (hlimit 7).trans ?_⟩
  rw [if_pos (by decide), pastLimit_of_short (by decide +kernel)]

/-- **Limits and symbols with which it does not grow so.** One symbol back, the letters lead to two
sets, but a limit too long to be written is not what the construction is refused with; and over a
symbol that is spelled like a heading of the table drawn at the least level, the construction fails
there. -/
theorem toDfa_looksBack_one :
    (lookingBack letters 0).LooksBack "a" "b" 1 ∧
    (lookingBack letters 0).toDfa (.int (-(Nat.pow 10 Text.numeralLimit))) =
      .error (.unwritable .longInteger) ∧
    (lookingBack headingAndLetter 0).LooksBack "NFA STATE" "b" 1 ∧
    ((lookingBack headingAndLetter 0).toDfaTraced .debug .null).outcome =
      .error (.unwritable .repeatedHeading) := by
  refine ⟨looksBack_lookingBack rfl 0, ?_, looksBack_lookingBack rfl 0,
    outcome_toDfaTraced_of_clash (by decide)⟩
  obtain ⟨D, hD, -⟩ := (lookingBack letters 0).exists_toDfa
  have hpos := D.size_pos
  rw [toDfa_int hD, capped_of_lt (by omega), pastLimit_of_long isLongInteger_neg_pow]

end Nfa

end FiniteAutomata
