import FiniteAutomata.Proofs.Subset.Exploration
import Mathlib.Data.List.Sublists

/-!
# Proofs/Subset/Worklist — the exploration comes to an end, with a row for every set

A row is worked out symbol by symbol (`Nfa.visit_null`) and rows are worked out until every listed
set has one (`Nfa.explore_null`); on the way the list only grows, so an entry of a row keeps its
meaning (`Nfa.IsRow.mono`). Listed sets are distinct sets of states that can be reached at all, and
there are at most `Nfa.subsetBound` of these, so the rounds that are granted are enough
(`Nfa.exists_exploration`).
-/

namespace FiniteAutomata

namespace Nfa

variable {N : Nfa}

/-! ## Rows -/

/-- The entry stands for the set: it is its number in the list, or missing if the set is empty. -/
def IsTarget (T : List StateSet) (S : StateSet) : Option Nat → Prop
  | none => S = ∅
  | some j => T[j]? = some S

theorem IsTarget.mono {T U : List StateSet} (h : T <+: U) {S : StateSet} {o : Option Nat}
    (ho : IsTarget T S o) : IsTarget U S o :=
  match o with
  | none => ho
  | some _ => getElem?_of_isPrefix h ho

/-- **The row says for each symbol which listed set the set leads to.** -/
structure IsRow (N : Nfa) (T : List StateSet) (S : StateSet) (symbols : List Symbol)
    (row : List (Symbol × Option Nat)) : Prop where
  symbols_eq : row.map (·.1) = symbols
  isTarget : ∀ e ∈ row, IsTarget T (N.step S e.1) e.2

namespace IsRow

variable {T U : List StateSet} {S : StateSet} {symbols : List Symbol}
  {row : List (Symbol × Option Nat)}

theorem nil : N.IsRow T S [] [] := ⟨rfl, by simp⟩

theorem cons {a : Symbol} {o : Option Nat} (h : N.IsRow T S symbols row)
    (ho : IsTarget T (N.step S a) o) : N.IsRow T S (a :: symbols) ((a, o) :: row) where
  symbols_eq := by rw [List.map_cons, h.symbols_eq]
  isTarget := List.forall_mem_cons.mpr ⟨ho, h.isTarget⟩

theorem mono (hTU : T <+: U) (h : N.IsRow T S symbols row) : N.IsRow U S symbols row where
  symbols_eq := h.symbols_eq
  isTarget e he := (h.isTarget e he).mono hTU

end IsRow

/-! ## Working out one row -/

/-- The moves of all sets before the `p`-th, and those of the `p`-th on the symbols in `done`. -/
def Followed (N : Nfa) (p : Nat) (done : List Symbol) (m : Nat × Symbol) : Prop :=
  m.2 ∈ N.alphabet ∧ (m.1 < p ∨ m.1 = p ∧ m.2 ∈ done)

theorem followed_concat_iff {p : Nat} {done : List Symbol} {a : Symbol} (ha : a ∈ N.alphabet)
    (m : Nat × Symbol) :
    (N.Followed p done m ∨ m = (p, a)) ↔ N.Followed p (done ++ [a]) m := by
  obtain ⟨i, b⟩ := m
  simp only [Followed, Prod.mk.injEq, List.mem_append, List.mem_singleton]
  constructor
  · rintro (⟨hb, hlt | ⟨hi, hdone⟩⟩ | ⟨rfl, rfl⟩)
    · exact ⟨hb, .inl hlt⟩
    · exact ⟨hb, .inr ⟨hi, .inl hdone⟩⟩
    · exact ⟨ha, .inr ⟨rfl, .inr rfl⟩⟩
  · rintro ⟨hb, hlt | ⟨hi, hdone | rfl⟩⟩
    · exact .inl ⟨hb, .inl hlt⟩
    · exact .inl ⟨hb, .inr ⟨hi, hdone⟩⟩
    · exact .inr ⟨hi, rfl⟩

/-- All moves of the sets before the `p + 1`-st are those of the `p`-th on the whole alphabet and
those of the sets before. -/
theorem followed_symbols_iff {p : Nat} (m : Nat × Symbol) :
    N.Followed p N.alphabet.symbols m ↔ N.Followed (p + 1) [] m := by
  simp only [Followed, List.not_mem_nil, and_false, or_false, Alphabet.mem_symbols]
  refine and_congr_right fun ha => ?_
  rw [Nat.lt_succ_iff_lt_or_eq]
  exact or_congr_right (and_iff_left ha)

/-- The move that comes next comes after all moves that were followed. -/
theorem moveBefore_of_followed {p : Nat} {done rest : List Symbol} {a : Symbol}
    (hsplit : N.alphabet.symbols = done ++ a :: rest) {m : Nat × Symbol}
    (hm : N.Followed p done m) : N.MoveBefore m (p, a) := by
  rcases hm with ⟨-, hlt | ⟨hi, hdone⟩⟩
  · exact Prod.lex_def.mpr (.inl hlt)
  · exact Prod.lex_def.mpr (.inr ⟨hi, Alphabet.before_of_append hsplit hdone⟩)

theorem visit_cons_of_empty {limit : Value} {S : StateSet} {a : Symbol} {rest : List Symbol}
    {found : IdentityTable StateSet} (h : N.step S a = ∅) :
    N.visit limit S (a :: rest) found =
      (N.visit limit S rest found).bind fun r => .ok ((a, none) :: r.1, r.2) := by
  simp only [visit, h, show (∅ : StateSet).isEmpty = true from rfl, if_true]
  rfl

theorem visit_null_cons {S : StateSet} {a : Symbol} {rest : List Symbol}
    {found : IdentityTable StateSet} (h : N.step S a ≠ ∅) :
    N.visit .null S (a :: rest) found =
      (N.visit .null S rest (found.insert (N.step S a)).2.2).bind fun r =>
        .ok ((a, some (found.insert (N.step S a)).1) :: r.1, r.2) := by
  have hne : (N.step S a).isEmpty = false :=
    Bool.eq_false_iff.mpr fun he => h (StateSet.isEmpty_iff.mp he)
  rw [visit]
  simp only [hne, Bool.false_eq_true, if_false]
  cases (found.insert (N.step S a)).2.1 <;> rfl

/-- **Without a limit a row is always worked out**, and what was found before stays. -/
theorem visit_null {S : StateSet} {p : Nat} : ∀ {rest done : List Symbol}
    {found : IdentityTable StateSet}, N.alphabet.symbols = done ++ rest →
    found.identities[p]? = some S → N.Explored found.identities (N.Followed p done) →
    ∃ row found', N.visit .null S rest found = .ok (row, found') ∧
      found.identities <+: found'.identities ∧ N.IsRow found'.identities S rest row ∧
      N.Explored found'.identities (N.Followed p N.alphabet.symbols)
  | [], done, found, hsplit, _, h => by
      obtain rfl : N.alphabet.symbols = done := hsplit.trans (List.append_nil _)
      exact ⟨[], found, rfl, List.prefix_refl _, .nil, h⟩
  | a :: rest, done, found, hsplit, hS, h => by
      have ha : a ∈ N.alphabet := by
        rw [← Alphabet.mem_symbols, hsplit]
        simp
      have hsplit' : N.alphabet.symbols = (done ++ [a]) ++ rest := by simpa using hsplit
      have hlast : ∀ m, N.Followed p done m → N.MoveBefore m (p, a) := fun _ hm =>
        moveBefore_of_followed hsplit hm
      by_cases hempty : N.step S a = ∅
      · have hnext := (h.follow_known hS ha hlast (.inl hempty)).congr (followed_concat_iff ha)
        obtain ⟨row, found', hrun, hpre, hrow, hdone⟩ := visit_null hsplit' hS hnext
        refine ⟨(a, none) :: row, found', ?_, hpre, hrow.cons hempty, hdone⟩
        rw [visit_cons_of_empty hempty, hrun]
        rfl
      · have hnext := (h.follow_insert hS ha hlast hempty).congr (followed_concat_iff ha)
        have hgrow := found.isPrefix_insert (S := N.step S a)
        obtain ⟨row, found', hrun, hpre, hrow, hdone⟩ :=
          visit_null hsplit' (getElem?_of_isPrefix hgrow hS) hnext
        have hi := getElem?_of_isPrefix hpre (found.getElem?_insert (S := N.step S a))
        refine ⟨(a, some (found.insert (N.step S a)).1) :: row, found', ?_, hgrow.trans hpre,
          hrow.cons hi, hdone⟩
        rw [visit_null_cons hempty, hrun]
        rfl

/-! ## Working out all rows -/

/-- **The rows are those of the first sets**, in order, and all their moves were followed. -/
structure Sound (N : Nfa) (e : Exploration) : Prop where
  explored : N.Explored e.found.identities (N.Followed e.rows.length [])
  isRow : ∀ (i : Nat) (row : List (Symbol × Option Nat)) (S : StateSet), e.rows[i]? = some row →
    e.found.identities[i]? = some S → N.IsRow e.found.identities S N.alphabet.symbols row
  length_rows_le : e.rows.length ≤ e.found.identities.length

/-- A round adds the row of the next set. -/
theorem Sound.visit {e : Exploration} (h : N.Sound e) {S : StateSet}
    (hS : e.found.identities[e.rows.length]? = some S) :
    ∃ row found', N.visit .null S N.alphabet.symbols e.found = .ok (row, found') ∧
      N.Sound ⟨found', e.rows ++ [row]⟩ := by
  have hsplit : N.alphabet.symbols = [] ++ N.alphabet.symbols := rfl
  obtain ⟨row, found', hrun, hpre, hrow, hdone⟩ := visit_null hsplit hS h.explored
  have hlt : e.rows.length < e.found.identities.length := (List.getElem?_eq_some_iff.mp hS).1
  refine ⟨row, found', hrun, ?_, fun i r U hr hU => ?_, ?_⟩
  · simpa using hdone.congr followed_symbols_iff
  · rcases getElem?_concat_eq_some_iff.mp hr with hr | ⟨rfl, rfl⟩
    · have hmem : i < e.found.identities.length :=
        (List.getElem?_eq_some_iff.mp hr).1.trans hlt
      have hU' : e.found.identities[i]? = some U := by
        rw [List.getElem?_eq_getElem hmem, ← hU]
        exact (getElem?_of_isPrefix hpre (List.getElem?_eq_getElem hmem)).symm
      exact (h.isRow i r U hr hU').mono hpre
    · obtain rfl := Option.some.inj ((getElem?_of_isPrefix hpre hS).symm.trans hU)
      exact hrow
  · rw [List.length_append, List.length_singleton]
    exact hlt.trans_le hpre.length_le

/-- Rounds go on until every set has a row or no round is left. -/
theorem explore_null : ∀ {k : Nat} {e : Exploration}, N.Sound e →
    ∃ e', N.explore .null k e = .ok e' ∧ N.Sound e' ∧
      (e'.rows.length = e'.found.identities.length ∨ e'.rows.length = e.rows.length + k)
  | 0, e, h => ⟨e, rfl, h, .inr rfl⟩
  | k + 1, e, h => by
      unfold explore
      cases hS : e.found.identities[e.rows.length]? with
      | none =>
        have hge := List.getElem?_eq_none_iff.mp hS
        exact ⟨e, rfl, h, .inl (Nat.le_antisymm h.length_rows_le hge)⟩
      | some S =>
        obtain ⟨row, found', hrun, hnext⟩ := h.visit hS
        obtain ⟨e', hrest, hsound, hend⟩ := explore_null (k := k) hnext
        refine ⟨e', ?_, hsound, hend.imp_right fun hlen => ?_⟩
        · simp only [hrun]
          exact hrest
        · simp only [List.length_append, List.length_singleton] at hlen
          omega

/-! ## Rounds are enough -/

/-- **Every listed set is what some word leads to.** -/
theorem Explored.exists_word {T : List StateSet} {F : Nat × Symbol → Prop} (h : N.Explored T F)
    {j : Nat} {S : StateSet} (hS : T[j]? = some S) :
    ∃ w, (∀ a ∈ w, a ∈ N.alphabet) ∧ S = N.reach w := by
  induction j using Nat.strong_induction_on generalizing S with
  | _ j ih =>
    rcases Nat.eq_zero_or_pos j with rfl | hj
    · exact ⟨[], by simp, Option.some.inj (hS.symm.trans h.head)⟩
    · obtain ⟨m, hm, hlt, U, hU, hj'⟩ := h.found j hj (List.getElem?_eq_some_iff.mp hS).1
      obtain ⟨w, hw, rfl⟩ := ih m.1 hlt hU
      refine ⟨w ++ [m.2], ?_, ?_⟩
      · exact List.forall_mem_append.mpr ⟨hw, by simpa using (h.listed m hm).1⟩
      · rw [reach_concat]
        exact Option.some.inj (hS.symm.trans hj')

/-- A path from a state that is reached stays among such states. -/
theorem Path.mem_reachedStates {x y : State} {w : List Symbol} (h : N.Path x w y)
    (hx : x ∈ N.reachedStates) : y ∈ N.reachedStates := by
  have htarget : ∀ t ∈ N.transitions, t.target ∈ N.reachedStates := fun t ht => by
    rw [reachedStates, StateSet.mem_ofList]
    exact List.mem_cons_of_mem _ (List.mem_map_of_mem ht)
  induction h with
  | done => exact hx
  | skip ht _ _ ih => exact ih (htarget _ ht)
  | read ht _ _ ih => exact ih (htarget _ ht)

theorem mem_reachedStates_of_mem_reach {w : List Symbol} {x : State} (h : x ∈ N.reach w) :
    x ∈ N.reachedStates :=
  (mem_reach.mp h).mem_reachedStates (by simp [reachedStates])

end Nfa

/-- A subset lists some members of the set, in the same order. -/
theorem StateSet.sublist_of_subset {S R : StateSet} (h : ∀ s ∈ S, s ∈ R) :
    S.elems.Sublist R.elems := by
  have hfilter : S.elems = R.elems.filter fun s => decide (s ∈ S) := by
    refine eq_of_mem_iff_of_pairwise S.ascending (R.ascending.filter _) fun s => ?_
    simpa using h s
  rw [hfilter]
  exact List.filter_sublist

/-- **There are no more distinct sets of members of `R` than it has subsets.** -/
theorem StateSet.length_le_two_pow {T : List StateSet} {R : StateSet} (hT : T.Nodup)
    (h : ∀ S ∈ T, ∀ s ∈ S, s ∈ R) : T.length ≤ 2 ^ R.elems.length := by
  have hinj : Function.Injective StateSet.elems := fun S U he =>
    StateSet.ext fun s => by rw [← mem_elems, he, mem_elems]
  have hsub : T.map StateSet.elems ⊆ R.elems.sublists := fun l hl => by
    obtain ⟨S, hS, rfl⟩ := List.mem_map.mp hl
    exact List.mem_sublists.mpr (sublist_of_subset (h S hS))
  calc
    T.length = (T.map StateSet.elems).length := (List.length_map _).symm
    _ ≤ R.elems.sublists.length := (List.subperm_of_subset (hT.map hinj) hsub).length_le
    _ = 2 ^ R.elems.length := List.length_sublists _

namespace Nfa

variable {N : Nfa}

theorem Explored.length_le_subsetBound {T : List StateSet} {F : Nat × Symbol → Prop}
    (h : N.Explored T F) : T.length ≤ N.subsetBound := by
  refine StateSet.length_le_two_pow h.nodup fun S hS s hs => ?_
  obtain ⟨j, hj⟩ := List.mem_iff_getElem?.mp hS
  obtain ⟨w, -, rfl⟩ := h.exists_word hj
  exact mem_reachedStates_of_mem_reach hs

theorem start_mem_startSet : N.start ∈ N.startSet :=
  mem_closure.mpr ⟨N.start, by simp, .done _⟩

/-- Before any round the start set is listed and has no row. -/
theorem sound_initial : N.Sound ⟨⟨[N.startSet]⟩, []⟩ where
  explored := {
    nodup := List.nodup_singleton _
    head := rfl
    ne_empty := fun S hS he =>
      StateSet.notMem_empty N.start (he ▸ List.mem_singleton.mp hS ▸ start_mem_startSet)
    listed := fun m hm => by simp [Followed] at hm
    closed := fun m _ hm => by simp [Followed] at hm
    found := fun j hj hlt => by simp at hlt; omega
    ordered := fun _ _ m _ _ hm => by simp [Followed] at hm }
  isRow := fun i row S hr => by simp at hr
  length_rows_le := Nat.zero_le _

/-- **Without a limit the exploration ends, with a row for every set.** -/
theorem exists_exploration (N : Nfa) : ∃ e, N.exploration .null = .ok e ∧ N.Sound e ∧
    e.rows.length = e.found.identities.length := by
  have hfirst : (IdentityTable.empty.insert N.startSet).2.2 = ⟨[N.startSet]⟩ := by
    rw [IdentityTable.insert_of_notMem (by simp [IdentityTable.empty])]
    rfl
  obtain ⟨e, hrun, hsound, hend⟩ := explore_null (k := N.subsetBound + 1) N.sound_initial
  refine ⟨e, ?_, hsound, hend.resolve_right fun hlen => ?_⟩
  · rw [exploration, hfirst]
    exact hrun
  · have hbound := hsound.explored.length_le_subsetBound
    have hle := hsound.length_rows_le
    simp only [List.length_nil] at hlen
    omega

end Nfa

end FiniteAutomata
