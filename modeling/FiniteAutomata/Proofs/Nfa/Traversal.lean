import FiniteAutomata.Proofs.Nfa.Query
import Mathlib.Data.List.Perm.Basic
import Mathlib.Logic.Relation
import Mathlib.Order.WellFounded

/-!
# Proofs/Nfa/Traversal — following empty moves with a stack

A traversal keeps the states whose empty moves are still to be followed on a stack, and all states
that it has seen in a set. A round takes the last of the stack and puts those of its targets there
that are new, in any order (`Nfa.Round`). Every round lowers the number of states that wait and of
moves to states that were not seen (`Nfa.rank_lt_of_round`), so every traversal ends, and when
nothing waits, it has seen the closure of the states it started from
(`Nfa.SoundTraversal.seen_eq_closure`), whatever the order in which targets came.
-/

namespace FiniteAutomata

/-- **A traversal under way**: the states that wait, the next one first, and the states seen. -/
structure Traversal where
  waiting : List State
  seen : StateSet

namespace Traversal

/-- The traversal that starts from some states, of which the last is followed first. -/
def start (seeds : List State) : Traversal := ⟨seeds.reverse, .ofList seeds⟩

/-- A state that is new is noted, and waits. -/
def see (t : Traversal) (x : State) : Traversal :=
  if x ∈ t.seen then t else ⟨x :: t.waiting, t.seen.insert x⟩

variable {t : Traversal} {x y : State} {targets : List State}

theorem see_of_mem (h : x ∈ t.seen) : t.see x = t := if_pos h

theorem see_of_notMem (h : x ∉ t.seen) : t.see x = ⟨x :: t.waiting, t.seen.insert x⟩ := if_neg h

theorem mem_seen_see : y ∈ (t.see x).seen ↔ y ∈ t.seen ∨ y = x := by
  by_cases h : x ∈ t.seen
  · rw [see_of_mem h]
    exact ⟨.inl, fun hy => hy.elim id fun hyx => hyx ▸ h⟩
  · rw [see_of_notMem h, StateSet.mem_insert]
    exact or_comm

theorem mem_waiting_see : y ∈ (t.see x).waiting ↔ y ∈ t.waiting ∨ y = x ∧ x ∉ t.seen := by
  by_cases h : x ∈ t.seen
  · rw [see_of_mem h]
    exact ⟨.inl, fun hy => hy.elim id fun hyx => absurd h hyx.2⟩
  · rw [see_of_notMem h, List.mem_cons, and_iff_left h]
    exact or_comm

theorem mem_seen_foldl : y ∈ (targets.foldl see t).seen ↔ y ∈ t.seen ∨ y ∈ targets := by
  induction targets generalizing t with
  | nil => simp
  | cons x targets ih => rw [List.foldl_cons, ih, mem_seen_see, List.mem_cons, or_assoc]

/-- The states that wait are those that waited and those that are new. -/
theorem mem_waiting_foldl : y ∈ (targets.foldl see t).waiting ↔
    y ∈ t.waiting ∨ y ∈ targets ∧ y ∉ t.seen := by
  induction targets generalizing t with
  | nil => simp
  | cons x targets ih =>
    rw [List.foldl_cons, ih, mem_waiting_see, mem_seen_see, List.mem_cons]
    by_cases hyx : y = x
    · subst hyx
      by_cases hy : y ∈ t.seen <;> simp [hy]
    · simp [hyx]

end Traversal

namespace Nfa

open Traversal

variable {N : Nfa} {seeds : List State} {t u : Traversal} {x : State}

/-- **A round follows the empty moves of the next state**, its targets in any order. -/
inductive Round (N : Nfa) : Traversal → Traversal → Prop where
  | follow {x : State} {waiting targets : List State} {seen : StateSet} :
      targets.Perm (N.query x .epsilon).elems →
        Round N ⟨x :: waiting, seen⟩ (targets.foldl see ⟨waiting, seen⟩)

/-- There is a round as long as a state waits. -/
theorem exists_round (h : t.waiting ≠ []) : ∃ u, N.Round t u := by
  obtain ⟨_ | ⟨x, waiting⟩, seen⟩ := t
  · exact absurd rfl h
  · exact ⟨_, .follow (List.Perm.refl _)⟩

/-! ## Every traversal ends -/

/-- The states that wait, and the empty moves to states that were not seen. -/
def rank (N : Nfa) (t : Traversal) : Nat := t.waiting.length + (N.pending t.seen).length

/-- Seeing what an empty move leads to takes that move away for what comes to wait. -/
theorem rank_see_le {s : State} (h : x ∈ N.query s .epsilon) : N.rank (t.see x) ≤ N.rank t := by
  by_cases hx : x ∈ t.seen
  · rw [see_of_mem hx]
  · obtain ⟨m, hm, hread, -, rfl⟩ := mem_query.mp h
    have hsub : ∀ y ∈ t.seen, y ∈ t.seen.insert m.target := fun y hy =>
      StateSet.mem_insert.mpr (.inr hy)
    have hlt : (N.pending (t.seen.insert m.target)).length < (N.pending t.seen).length := by
      rw [pending_eq_filter hsub]
      refine List.length_filter_lt_length_iff_exists.mpr ⟨m, mem_pending.mpr ⟨hm, hread, hx⟩, ?_⟩
      simp
    rw [see_of_notMem hx]
    simp only [rank, List.length_cons]
    omega

theorem rank_foldl_le {s : State} {targets : List State}
    (h : ∀ x ∈ targets, x ∈ N.query s .epsilon) : N.rank (targets.foldl see t) ≤ N.rank t := by
  induction targets generalizing t with
  | nil => exact Nat.le_refl _
  | cons x targets ih =>
    obtain ⟨hx, htargets⟩ := List.forall_mem_cons.mp h
    exact (ih htargets).trans (rank_see_le hx)

/-- **Each round lowers the rank.** -/
theorem rank_lt_of_round (h : N.Round t u) : N.rank u < N.rank t := by
  obtain @⟨x, waiting, targets, seen, hperm⟩ := h
  have hle : N.rank (targets.foldl see ⟨waiting, seen⟩) ≤ N.rank ⟨waiting, seen⟩ :=
    rank_foldl_le fun y hy => hperm.mem_iff.mp hy
  refine Nat.lt_of_le_of_lt hle ?_
  simp only [rank, List.length_cons]
  omega

/-- **No traversal goes on for ever.** -/
theorem wellFounded_round (N : Nfa) : WellFounded fun u t => N.Round t u :=
  Subrelation.wf rank_lt_of_round (measure N.rank).wf

/-! ## What a traversal has seen -/

/-- **What holds all the time**: the states started from are seen, and all that wait; only what
empty moves reach from the former is; and so are the targets of all that are seen and do not wait.
-/
structure SoundTraversal (N : Nfa) (seeds : List State) (t : Traversal) : Prop where
  seeds_seen : ∀ s ∈ seeds, s ∈ t.seen
  waiting_seen : ∀ s ∈ t.waiting, s ∈ t.seen
  exists_path : ∀ x ∈ t.seen, ∃ s ∈ seeds, N.Path s [] x
  followed : ∀ x ∈ t.seen, x ∉ t.waiting → ∀ y ∈ N.query x .epsilon, y ∈ t.seen

namespace SoundTraversal

theorem initial (N : Nfa) (seeds : List State) : N.SoundTraversal seeds (.start seeds) where
  seeds_seen _ hs := StateSet.mem_ofList.mpr hs
  waiting_seen _ hs := StateSet.mem_ofList.mpr (List.mem_reverse.mp hs)
  exists_path x hx := ⟨x, StateSet.mem_ofList.mp hx, .done x⟩
  followed _ hx hnot := absurd (List.mem_reverse.mpr (StateSet.mem_ofList.mp hx)) hnot

/-- **A round keeps it.** -/
theorem round (h : N.SoundTraversal seeds t) (hround : N.Round t u) : N.SoundTraversal seeds u := by
  obtain @⟨x, waiting, targets, seen, hperm⟩ := hround
  have hx : x ∈ seen := h.waiting_seen x List.mem_cons_self
  have htargets : ∀ {y}, y ∈ targets ↔ y ∈ N.query x .epsilon := hperm.mem_iff
  constructor
  case seeds_seen => exact fun s hs => mem_seen_foldl.mpr (.inl (h.seeds_seen s hs))
  case waiting_seen =>
    intro s hs
    rcases mem_waiting_foldl.mp hs with hs | ⟨hs, -⟩
    · exact mem_seen_foldl.mpr (.inl (h.waiting_seen s (List.mem_cons_of_mem x hs)))
    · exact mem_seen_foldl.mpr (.inr hs)
  case exists_path =>
    intro y hy
    rcases mem_seen_foldl.mp hy with hy | hy
    · exact h.exists_path y hy
    · obtain ⟨m, hm, hread, rfl, rfl⟩ := mem_query.mp (htargets.mp hy)
      obtain ⟨s, hs, hpath⟩ := h.exists_path m.source hx
      exact ⟨s, hs, hpath.append (.skip hm hread (.done _))⟩
  case followed =>
    intro y hy hnot z hz
    obtain ⟨hwaiting, hnew⟩ := not_or.mp (mt mem_waiting_foldl.mpr hnot)
    have hseen : y ∈ seen := (mem_seen_foldl.mp hy).elim id fun htarget =>
      Classical.byContradiction fun hno => hnew ⟨htarget, hno⟩
    -- a state that does not wait was followed before, or is the one that is followed now
    by_cases hyx : y = x
    · exact mem_seen_foldl.mpr (.inr (htargets.mpr (hyx ▸ hz)))
    · have hnot' : y ∉ x :: waiting := fun hmem => (List.mem_cons.mp hmem).elim hyx hwaiting
      exact mem_seen_foldl.mpr (.inl (h.followed y hseen hnot' z hz))

/-- **It holds of every traversal from the start.** -/
theorem of_rounds (h : Relation.ReflTransGen N.Round (.start seeds) t) :
    N.SoundTraversal seeds t := by
  induction h with
  | refl => exact initial N seeds
  | tail _ hround ih => exact ih.round hround

/-- **When nothing waits, the closure was seen.** -/
theorem seen_eq_closure (h : N.SoundTraversal seeds t) (hwaiting : t.waiting = []) :
    t.seen = N.closure (.ofList seeds) := by
  have hclosed : N.IsClosed t.seen := fun m hm hread hsource =>
    h.followed _ hsource (hwaiting ▸ List.not_mem_nil) _ (target_mem_query hm hread)
  refine StateSet.ext fun x => ?_
  rw [mem_closure]
  constructor
  · intro hx
    obtain ⟨s, hs, hpath⟩ := h.exists_path x hx
    exact ⟨s, StateSet.mem_ofList.mpr hs, hpath⟩
  · rintro ⟨s, hs, hpath⟩
    exact hclosed.mem_of_path hpath rfl (h.seeds_seen s (StateSet.mem_ofList.mp hs))

end SoundTraversal

/-- **A traversal goes on, or has seen the closure of the states it started from.** -/
theorem exists_round_or_seen_eq (h : Relation.ReflTransGen N.Round (.start seeds) t) :
    (∃ u, N.Round t u) ∨ t.waiting = [] ∧ t.seen = N.closure (.ofList seeds) := by
  by_cases hwaiting : t.waiting = []
  · exact .inr ⟨hwaiting, (SoundTraversal.of_rounds h).seen_eq_closure hwaiting⟩
  · exact .inl (exists_round hwaiting)

end Nfa

end FiniteAutomata
