import FiniteAutomata.Nfa.Basic

/-!
# Nfa/Path — paths through the listed transitions

A `Nfa.Path` follows listed transitions one after the other and spells the symbols that are read on
the way; empty moves may be taken anywhere and spell nothing. `Nfa.closure` holds exactly the states
to which a path without symbols leads (`Nfa.mem_closure`), and one step of the simulation exactly
those to which a path of one symbol leads from a closed set (`Nfa.mem_step`).
-/

namespace FiniteAutomata

namespace Nfa

/-- **A path from a state to a state that spells a word.** -/
inductive Path (N : Nfa) : State → List Symbol → State → Prop where
  | done (s : State) : Path N s [] s
  | skip {t : Transition} {w : List Symbol} {y : State} : t ∈ N.transitions → t.Reads .epsilon →
      Path N t.target w y → Path N t.source w y
  | read {t : Transition} {a : Symbol} {w : List Symbol} {y : State} : t ∈ N.transitions →
      t.Reads (.symbol a) → Path N t.target w y → Path N t.source (a :: w) y

variable {N : Nfa}

/-- Paths are put together end to end. -/
theorem Path.append {x y z : State} {v w : List Symbol} (h : N.Path x v y) (k : N.Path y w z) :
    N.Path x (v ++ w) z := by
  induction h with
  | done => exact k
  | skip ht hr _ ih => exact .skip ht hr (ih k)
  | read ht hr _ ih => exact .read ht hr (ih k)

/-- A path is cut where its word is cut. -/
theorem Path.exists_of_append {x z : State} {v w : List Symbol} (h : N.Path x (v ++ w) z) :
    ∃ y, N.Path x v y ∧ N.Path y w z := by
  generalize hu : v ++ w = u at h
  induction h generalizing v with
  | done s =>
    obtain ⟨rfl, rfl⟩ := List.append_eq_nil_iff.mp hu
    exact ⟨s, .done s, .done s⟩
  | skip ht hr _ ih =>
    obtain ⟨y, hv, hw⟩ := ih hu
    exact ⟨y, .skip ht hr hv, hw⟩
  | @read t a u' _ ht hr hp ih =>
    cases v with
    | nil =>
      obtain rfl : w = a :: u' := hu
      exact ⟨_, .done _, .read ht hr hp⟩
    | cons b v =>
      obtain ⟨rfl, hu'⟩ := List.cons.inj hu
      obtain ⟨y, hv, hw⟩ := ih hu'
      exact ⟨y, .read ht hr hv, hw⟩

/-! ## Closed sets -/

/-- No empty move leaves the set. -/
def IsClosed (N : Nfa) (S : StateSet) : Prop :=
  ∀ t ∈ N.transitions, t.Reads .epsilon → t.source ∈ S → t.target ∈ S

theorem spread_eq_self_iff {S : StateSet} : N.spread S = S ↔ N.IsClosed S := by
  constructor
  · intro h t ht hr hs
    rw [← h, spread, StateSet.mem_union, mem_move]
    exact .inr ⟨t, ht, hr, hs, rfl⟩
  · intro h
    refine StateSet.ext fun s => ?_
    rw [spread, StateSet.mem_union, mem_move]
    constructor
    · rintro (hs | ⟨t, ht, hr, hs, rfl⟩)
      · exact hs
      · exact h t ht hr hs
    · exact .inl

/-- A path without symbols stays in a closed set. -/
theorem IsClosed.mem_of_path {S : StateSet} (h : N.IsClosed S) {x y : State} {w : List Symbol}
    (hp : N.Path x w y) (hw : w = []) (hx : x ∈ S) : y ∈ S := by
  induction hp with
  | done => exact hx
  | skip ht hr _ ih => exact ih hw (h _ ht hr hx)
  | read => nomatch hw

/-- The empty moves whose targets are not in the set. -/
def pending (N : Nfa) (S : StateSet) : List Transition :=
  N.transitions.filter fun t => decide (t.Reads .epsilon) && !decide (t.target ∈ S)

theorem mem_pending {S : StateSet} {t : Transition} :
    t ∈ N.pending S ↔ t ∈ N.transitions ∧ t.Reads .epsilon ∧ t.target ∉ S := by
  simp [pending]

/-- The pending moves of a set are those of a smaller one whose targets are not in it. -/
theorem pending_eq_filter {S T : StateSet} (h : ∀ s ∈ S, s ∈ T) :
    N.pending T = (N.pending S).filter fun t => !decide (t.target ∈ T) := by
  unfold pending
  rw [List.filter_filter]
  refine List.filter_congr fun t _ => ?_
  by_cases hT : t.target ∈ T
  · simp [hT]
  · have hS : t.target ∉ S := fun hS => hT (h _ hS)
    simp [hT, hS]

/-- A set that is not closed has more pending moves than what it spreads to. -/
theorem length_pending_spread {S : StateSet} (h : N.spread S ≠ S) :
    (N.pending (N.spread S)).length < (N.pending S).length := by
  have hsub : ∀ s ∈ S, s ∈ N.spread S := fun s hs => by
    rw [spread, StateSet.mem_union]
    exact .inl hs
  obtain ⟨t, ht, hr, hs, hn⟩ : ∃ t ∈ N.transitions, t.Reads .epsilon ∧ t.source ∈ S ∧
      t.target ∉ S := by
    apply Classical.byContradiction
    intro hno
    refine h (spread_eq_self_iff.mpr fun t ht hr hs => Classical.byContradiction fun hn => ?_)
    exact hno ⟨t, ht, hr, hs, hn⟩
  rw [pending_eq_filter hsub]
  refine List.length_filter_lt_length_iff_exists.mpr ⟨t, mem_pending.mpr ⟨ht, hr, hn⟩, ?_⟩
  have : t.target ∈ N.spread S := by
    rw [spread, StateSet.mem_union, mem_move]
    exact .inr ⟨t, ht, hr, hs, rfl⟩
  simp [this]

/-- As many rounds as there are pending moves close a set. -/
theorem isClosed_closeWithin : ∀ {k : Nat} {S : StateSet},
    (N.pending S).length ≤ k → N.IsClosed (N.closeWithin k S)
  | 0, _, h => by
      refine spread_eq_self_iff.mp (Classical.byContradiction fun hne => ?_)
      exact absurd (Nat.lt_of_lt_of_le (length_pending_spread hne) h) (Nat.not_lt_zero _)
  | k + 1, S, h => by
      unfold closeWithin
      split
      · rename_i hs
        exact spread_eq_self_iff.mp hs
      · rename_i hs
        have := length_pending_spread hs
        exact isClosed_closeWithin (by omega)

/-- Rounds add only what a path without symbols leads to. -/
theorem exists_path_of_mem_closeWithin {x : State} : ∀ {k : Nat} {S : StateSet},
    x ∈ N.closeWithin k S → ∃ s ∈ S, N.Path s [] x
  | 0, _, h => ⟨x, h, .done x⟩
  | k + 1, S, h => by
      unfold closeWithin at h
      split at h
      · exact ⟨x, h, .done x⟩
      · obtain ⟨s, hs, hp⟩ := exists_path_of_mem_closeWithin h
        rw [spread, StateSet.mem_union, mem_move] at hs
        rcases hs with hs | ⟨t, ht, hr, hs, rfl⟩
        · exact ⟨s, hs, hp⟩
        · exact ⟨t.source, hs, .skip ht hr hp⟩

theorem subset_closeWithin {s : State} : ∀ {k : Nat} {S : StateSet}, s ∈ S → s ∈ N.closeWithin k S
  | 0, _, h => h
  | k + 1, S, h => by
      unfold closeWithin
      split
      · exact h
      · exact subset_closeWithin (StateSet.mem_union.mpr (.inl h))

/-! ## The simulation -/

/-- **The closure is closed.** -/
theorem isClosed_closure (S : StateSet) : N.IsClosed (N.closure S) :=
  isClosed_closeWithin (List.length_filter_le ..)

/-- **The closure holds what paths without symbols lead to.** -/
theorem mem_closure {S : StateSet} {x : State} : x ∈ N.closure S ↔ ∃ s ∈ S, N.Path s [] x := by
  constructor
  · exact exists_path_of_mem_closeWithin
  · rintro ⟨s, hs, hp⟩
    exact (isClosed_closure S).mem_of_path hp rfl (subset_closeWithin hs)

/-- A path of one symbol reads it on a listed transition, with empty moves before and after. -/
theorem Path.singleton_iff {x y : State} {a : Symbol} :
    N.Path x [a] y ↔ ∃ t ∈ N.transitions, t.Reads (.symbol a) ∧ N.Path x [] t.source ∧
      N.Path t.target [] y := by
  constructor
  · intro h
    generalize hw : [a] = w at h
    induction h with
    | done => nomatch hw
    | skip ht hr _ ih =>
      obtain ⟨u, hu, hur, hb, he⟩ := ih hw
      exact ⟨u, hu, hur, .skip ht hr hb, he⟩
    | read ht hr hp _ =>
      obtain ⟨rfl, rfl⟩ := List.cons.inj hw
      exact ⟨_, ht, hr, .done _, hp⟩
  · rintro ⟨t, ht, hr, hb, he⟩
    exact hb.append (.read ht hr he)

/-- **One step of the simulation holds what paths of one symbol lead to** from a closed set. -/
theorem mem_step {S : StateSet} (hS : N.IsClosed S) {a : Symbol} {x : State} :
    x ∈ N.step S a ↔ ∃ s ∈ S, N.Path s [a] x := by
  rw [step, mem_closure]
  constructor
  · rintro ⟨y, hy, hp⟩
    obtain ⟨t, ht, hr, hs, rfl⟩ := (mem_move N).mp hy
    exact ⟨t.source, hs, .read ht hr hp⟩
  · rintro ⟨s, hs, hp⟩
    obtain ⟨t, ht, hr, hb, he⟩ := Path.singleton_iff.mp hp
    exact ⟨t.target, (mem_move N).mpr ⟨t, ht, hr, hS.mem_of_path hb rfl hs, rfl⟩, he⟩

end Nfa

end FiniteAutomata
