import FiniteAutomata.Identity
import Mathlib.Data.List.Nodup

/-!
# Proofs/IdentityTable — looking up what is told apart by something else

The sets of a table may be kept in many forms. If two of them are the same exactly when something
about them is equal, a set is looked up by that: the table has it if some listed set agrees with it
there (`IdentityTable.indexOf?_eq_none_iff_of`), and its number is the place of the one that does
(`IdentityTable.indexOf?_eq_some_iff_of`).
-/

namespace FiniteAutomata

namespace IdentityTable

variable {σ τ : Type} [Identity σ] {T : IdentityTable σ} {x : σ} {f : σ → τ} {i : Nat}
  (hsame : ∀ y ∈ T.identities, (Identity.same y x = true ↔ f y = f x))

include hsame

theorem indexOf?_eq_none_iff_of : T.indexOf? x = none ↔ f x ∉ T.identities.map f := by
  rw [indexOf?, List.findIdx?_eq_none_iff, List.mem_map, not_exists]
  refine forall_congr' fun y => ?_
  rw [not_and]
  exact forall_congr' fun hy => Bool.not_eq_true _ ▸ not_congr (hsame y hy)

theorem getElem?_of_indexOf?_of (h : T.indexOf? x = some i) :
    (T.identities.map f)[i]? = some (f x) := by
  obtain ⟨hi, hmatch, -⟩ := List.findIdx?_eq_some_iff_getElem.mp h
  rw [List.getElem?_map, List.getElem?_eq_getElem hi, Option.map_some]
  exact congrArg some ((hsame _ (List.getElem_mem hi)).mp hmatch)

/-- **The number of a set is its place**, if no two listed sets agree. -/
theorem indexOf?_eq_some_iff_of (hnodup : (T.identities.map f).Nodup) :
    T.indexOf? x = some i ↔ (T.identities.map f)[i]? = some (f x) := by
  refine ⟨getElem?_of_indexOf?_of hsame, fun hi => ?_⟩
  cases hj : T.indexOf? x with
  | none => exact absurd (List.mem_of_getElem? hi) ((indexOf?_eq_none_iff_of hsame).mp hj)
  | some j =>
    have hlt := (List.getElem?_eq_some_iff.mp hi).1
    have hget := getElem?_of_indexOf?_of hsame hj
    rw [(List.getElem?_inj hlt hnodup).mp (hi.trans hget.symm)]

end IdentityTable

end FiniteAutomata
