import FiniteAutomata.Dfa.Subset
import FiniteAutomata.Proofs.Entry
import FiniteAutomata.Proofs.IdentityTable
import FiniteAutomata.Proofs.Reach
import FiniteAutomata.Proofs.WordOrder

/-!
# Proofs/Subset/Exploration — what the subset construction has found, and in what order

The exploration follows moves, pairs of a numbered set and a symbol, in the order of the numbers and
then of the alphabet. `Nfa.Explored` says of a list of sets what following some moves has made of
it: no set is listed twice, every move that was followed leads to a listed set or to the empty one,
every set but the first was found by a move from an earlier one, and sets are listed in the order of
the first moves that lead to them. Following one more move keeps all this (`Explored.follow_known`,
`Explored.follow_new`), so it holds of what `Nfa.visit` and `Nfa.explore` return.
-/

namespace FiniteAutomata

/-! ## Looking sets up -/

namespace IdentityTable

variable {T : IdentityTable StateSet} {S : StateSet}

theorem same_iff_id_eq : ∀ U ∈ T.identities, (Identity.same U S = true ↔ id U = id S) :=
  fun _ _ => beq_iff_eq

theorem indexOf?_eq_none_iff : T.indexOf? S = none ↔ S ∉ T.identities := by
  rw [indexOf?_eq_none_iff_of same_iff_id_eq, List.map_id, id]

theorem getElem?_of_indexOf? {i : Nat} (h : T.indexOf? S = some i) :
    T.identities[i]? = some S := by
  have hget := getElem?_of_indexOf?_of same_iff_id_eq h
  rwa [List.map_id] at hget

/-- A set that the table has keeps its number. -/
theorem insert_of_mem (h : S ∈ T.identities) : ∃ i, T.indexOf? S = some i ∧
    T.insert S = (i, false, T) := by
  cases hi : T.indexOf? S with
  | none => exact absurd h (indexOf?_eq_none_iff.mp hi)
  | some i => exact ⟨i, rfl, by simp [insert, hi]⟩

/-- A new set comes last. -/
theorem insert_of_notMem (h : S ∉ T.identities) :
    T.insert S = (T.size, true, ⟨T.identities ++ [S]⟩) := by
  simp [insert, indexOf?_eq_none_iff.mpr h]

theorem isPrefix_insert : T.identities <+: (T.insert S).2.2.identities := by
  by_cases h : S ∈ T.identities
  · obtain ⟨i, -, hinsert⟩ := insert_of_mem h
    exact hinsert.symm ▸ List.prefix_refl T.identities
  · rw [insert_of_notMem h]
    exact List.prefix_append ..

/-- The number that a set is given is its place from then on. -/
theorem getElem?_insert : (T.insert S).2.2.identities[(T.insert S).1]? = some S := by
  by_cases h : S ∈ T.identities
  · obtain ⟨i, hi, hinsert⟩ := insert_of_mem h
    rw [hinsert]
    exact getElem?_of_indexOf? hi
  · rw [insert_of_notMem h]
    simp [size]

end IdentityTable

namespace Nfa

variable {N : Nfa} {T : List StateSet}

/-! ## Moves -/

/-- The first move starts from an earlier set, or reads an earlier symbol there. -/
def MoveBefore (N : Nfa) : Nat × Symbol → Nat × Symbol → Prop :=
  Prod.Lex (· < ·) N.alphabet.Before

/-- The move leads from its listed set to the listed set with number `j`. -/
def LeadsTo (N : Nfa) (T : List StateSet) (m : Nat × Symbol) (j : Nat) : Prop :=
  ∃ S, T[m.1]? = some S ∧ T[j]? = some (N.step S m.2)

theorem LeadsTo.mono {U : List StateSet} (h : T <+: U) {m : Nat × Symbol} {j : Nat}
    (hm : N.LeadsTo T m j) : N.LeadsTo U m j := by
  obtain ⟨S, hS, hj⟩ := hm
  exact ⟨S, getElem?_of_isPrefix h hS, getElem?_of_isPrefix h hj⟩

theorem LeadsTo.lt_length {m : Nat × Symbol} {j : Nat} (hm : N.LeadsTo T m j) : j < T.length :=
  (List.getElem?_eq_some_iff.mp hm.choose_spec.2).1

/-- **What following some moves has made of the list of sets.** -/
structure Explored (N : Nfa) (T : List StateSet) (followed : Nat × Symbol → Prop) : Prop where
  nodup : T.Nodup
  head : T[0]? = some N.startSet
  ne_empty : ∀ S ∈ T, S ≠ ∅
  listed : ∀ m, followed m → m.2 ∈ N.alphabet ∧ m.1 < T.length
  /-- A move that was followed leads to a listed set or to the empty one. -/
  closed : ∀ m S, followed m → T[m.1]? = some S → N.step S m.2 = ∅ ∨ N.step S m.2 ∈ T
  /-- Every set but the first was found by a move from an earlier one. -/
  found : ∀ j, 0 < j → j < T.length → ∃ m, followed m ∧ m.1 < j ∧ N.LeadsTo T m j
  /-- A move that leads to a set comes after some move to each earlier set. -/
  ordered : ∀ j k m, 0 < j → j < k → followed m → N.LeadsTo T m k →
    ∃ l, followed l ∧ N.MoveBefore l m ∧ N.LeadsTo T l j

namespace Explored

variable {F : Nat × Symbol → Prop} {S : StateSet} {p : Nat} {a : Symbol}

theorem congr {G : Nat × Symbol → Prop} (h : ∀ m, F m ↔ G m) (hF : N.Explored T F) :
    N.Explored T G :=
  funext (fun m => propext (h m)) ▸ hF

/-- Following a move that leads to a listed set, or to the empty one, lists nothing new. -/
theorem follow_known (h : N.Explored T F) (hS : T[p]? = some S) (ha : a ∈ N.alphabet)
    (hlast : ∀ m, F m → N.MoveBefore m (p, a)) (hknown : N.step S a = ∅ ∨ N.step S a ∈ T) :
    N.Explored T fun m => F m ∨ m = (p, a) where
  nodup := h.nodup
  head := h.head
  ne_empty := h.ne_empty
  listed := by
    rintro m (hm | rfl)
    · exact h.listed m hm
    · exact ⟨ha, (List.getElem?_eq_some_iff.mp hS).1⟩
  closed := by
    rintro m U (hm | rfl) hU
    · exact h.closed m U hm hU
    · obtain rfl := Option.some.inj (hS.symm.trans hU)
      exact hknown
  found := fun j hj hlt => by
    obtain ⟨m, hm, hlt, hlead⟩ := h.found j hj hlt
    exact ⟨m, .inl hm, hlt, hlead⟩
  ordered := by
    rintro j k m hj hjk (hm | rfl) hlead
    · obtain ⟨l, hl, hbefore, hlj⟩ := h.ordered j k m hj hjk hm hlead
      exact ⟨l, .inl hl, hbefore, hlj⟩
    · obtain ⟨l, hl, -, hlj⟩ := h.found j hj (hjk.trans hlead.lt_length)
      exact ⟨l, .inl hl, hlast l hl, hlj⟩

/-- A move that was followed does not lead to a set that is listed only now. -/
theorem leadsTo_of_append (h : N.Explored T F) {X : StateSet} (hX : X ∉ T) (hne : X ≠ ∅)
    {m : Nat × Symbol} (hm : F m) {k : Nat} (hlead : N.LeadsTo (T ++ [X]) m k) :
    N.LeadsTo T m k := by
  obtain ⟨S, hS, hk⟩ := hlead
  rw [List.getElem?_append_left (h.listed m hm).2] at hS
  refine ⟨S, hS, ?_⟩
  rcases getElem?_concat_eq_some_iff.mp hk with hk | ⟨-, hstep⟩
  · exact hk
  · rcases h.closed m S hm hS with he | hmem
    · exact absurd (hstep.trans he) hne
    · exact absurd (hstep ▸ hmem) hX

/-- Following a move that leads to a new set lists that set last. -/
theorem follow_new (h : N.Explored T F) (hS : T[p]? = some S) (ha : a ∈ N.alphabet)
    (hlast : ∀ m, F m → N.MoveBefore m (p, a)) (hne : N.step S a ≠ ∅) (hnew : N.step S a ∉ T) :
    N.Explored (T ++ [N.step S a]) fun m => F m ∨ m = (p, a) := by
  have hpre : T <+: T ++ [N.step S a] := List.prefix_append ..
  have hp : p < T.length := (List.getElem?_eq_some_iff.mp hS).1
  constructor
  case nodup =>
    exact List.nodup_append.mpr ⟨h.nodup, List.nodup_singleton _, fun U hU V hV he =>
      hnew (List.mem_singleton.mp hV ▸ he ▸ hU)⟩
  case head => exact getElem?_of_isPrefix hpre h.head
  case ne_empty =>
    intro U hU
    rcases List.mem_append.mp hU with hU | hU
    · exact h.ne_empty U hU
    · exact List.mem_singleton.mp hU ▸ hne
  case listed =>
    rintro m (hm | rfl)
    · exact ⟨(h.listed m hm).1, (h.listed m hm).2.trans_le hpre.length_le⟩
    · exact ⟨ha, hp.trans_le hpre.length_le⟩
  case closed =>
    rintro m U (hm | rfl) hU
    · rw [List.getElem?_append_left (h.listed m hm).2] at hU
      exact (h.closed m U hm hU).imp_right (List.mem_append_left _)
    · obtain rfl := Option.some.inj ((getElem?_of_isPrefix hpre hS).symm.trans hU)
      exact .inr (by simp)
  case found =>
    intro j hj hlt
    rw [List.length_append, List.length_singleton] at hlt
    rcases Nat.lt_succ_iff_lt_or_eq.mp hlt with hlt | rfl
    · obtain ⟨m, hm, hmj, hlead⟩ := h.found j hj hlt
      exact ⟨m, .inl hm, hmj, hlead.mono hpre⟩
    · exact ⟨(p, a), .inr rfl, hp, S, getElem?_of_isPrefix hpre hS, by simp⟩
  case ordered =>
    rintro j k m hj hjk (hm | rfl) hlead
    · have hlead' := h.leadsTo_of_append hnew hne hm hlead
      obtain ⟨l, hl, hbefore, hlj⟩ := h.ordered j k m hj hjk hm hlead'
      exact ⟨l, .inl hl, hbefore, hlj.mono hpre⟩
    · have hk := hlead.lt_length
      rw [List.length_append, List.length_singleton] at hk
      obtain ⟨l, hl, -, hlj⟩ := h.found j hj (by omega)
      exact ⟨l, .inl hl, hlast l hl, hlj.mono hpre⟩

/-- **Looking up what a move leads to keeps the list in order**, whether it was listed or not. -/
theorem follow_insert {found : IdentityTable StateSet} (h : N.Explored found.identities F)
    (hS : found.identities[p]? = some S) (ha : a ∈ N.alphabet)
    (hlast : ∀ m, F m → N.MoveBefore m (p, a)) (hne : N.step S a ≠ ∅) :
    N.Explored (found.insert (N.step S a)).2.2.identities fun m => F m ∨ m = (p, a) := by
  by_cases hmem : N.step S a ∈ found.identities
  · obtain ⟨i, -, hinsert⟩ := IdentityTable.insert_of_mem hmem
    rw [hinsert]
    exact h.follow_known hS ha hlast (.inr hmem)
  · rw [IdentityTable.insert_of_notMem hmem]
    exact h.follow_new hS ha hlast hne hmem

end Explored

end Nfa

end FiniteAutomata
