import FiniteAutomata.Check
import FiniteAutomata.Proofs.Entry
import Mathlib.Data.List.Induction

/-!
# Proofs/Sameness — values that are not told apart

Values that are the same are equal to the same integer, if to any (`Value.toInt?_eq_of_same`), and
those equal to the same integer are the same (`Value.same_of_toInt?`). Of the values of a list a set
keeps those that no kept one before them is the same as (`Value.distinct_concat`). So if all that it
keeps have some property, then every value has it unless an earlier one is the same, and for
properties of integers alone that is all there is to it (`Value.forall_mem_distinct_iff`).
-/

namespace FiniteAutomata

namespace Value

variable {v w : Value} {vs : List Value} {n : Int}

/-! ## Equal numbers -/

theorem toInt?_eq_none_of_toFraction? {x : Binary64} (h : v.toFraction? = some x) :
    v.toInt? = none := by
  unfold toFraction? at h
  split at h
  · split at h
    · exact nomatch h
    · rename_i hx
      exact Option.not_isSome_iff_eq_none.mp hx
  · exact nomatch h

/-- Values that are not told apart are equal to the same integer, if to any. -/
theorem toInt?_eq_of_same (h : v.same w = true) : v.toInt? = w.toInt? := by
  unfold same at h
  split at h
  all_goals first | rfl | skip
  split at h
  · simp_all
  · split at h
    · rename_i hv hw
      rw [toInt?_eq_none_of_toFraction? hv, toInt?_eq_none_of_toFraction? hw]
    · exact absurd h Bool.false_ne_true

/-- **Values that are equal to the same integer are not told apart.** -/
theorem same_of_toInt? (hv : v.toInt? = some n) (hw : w.toInt? = some n) : v.same w = true := by
  cases v <;> cases w <;> simp_all [same, toInt?]

theorem same_int_right : v.same (.int n) = true ↔ v.toInt? = some n :=
  ⟨fun h => toInt?_eq_of_same h, fun h => same_of_toInt? h rfl⟩

theorem same_int (m n : Nat) : (Value.int m).same (.int n) = (m == n) := by
  rw [Bool.eq_iff_iff]
  simp only [same, toInt?, beq_iff_eq]
  exact Int.ofNat_inj

/-- A number below the length of a list points to the place of that number. -/
theorem toPlace_int {n i : Nat} (hi : i < n) : (Value.int i).toPlace n = .ok ⟨i, hi⟩ := by
  have hplace : (if (i : Int) < 0 then (i : Int) + n else i) = i :=
    if_neg (Int.not_lt.mpr (Int.natCast_nonneg i))
  have hcond : 0 ≤ (if (i : Int) < 0 then (i : Int) + n else i) ∧
      (if (i : Int) < 0 then (i : Int) + n else i).toNat < n := by
    rw [hplace]
    exact ⟨Int.natCast_nonneg i, hi⟩
  refine (dif_pos hcond).trans (congrArg Except.ok (Fin.ext ?_))
  exact congrArg Int.toNat hplace

/-! ## What a set keeps -/

/-- **A set takes in one more value** unless it is the same as one that it has. -/
theorem distinct_concat (vs : List Value) (v : Value) : distinct (vs ++ [v]) =
    if (distinct vs).any (same · v) then distinct vs else distinct vs ++ [v] :=
  List.foldl_append

theorem mem_of_mem_distinct (h : v ∈ distinct vs) : v ∈ vs := by
  induction vs using List.reverseRecOn with
  | nil => exact h
  | append_singleton vs w ih =>
    rw [distinct_concat] at h
    rw [List.mem_append]
    split at h
    · exact .inl (ih h)
    · exact (List.mem_append.mp h).imp_left ih

/-- Every value is kept, or one that is the same. -/
theorem exists_mem_distinct (h : v ∈ vs) : v ∈ distinct vs ∨ ∃ w ∈ distinct vs, w.same v := by
  induction vs using List.reverseRecOn with
  | nil => exact absurd h List.not_mem_nil
  | append_singleton vs w ih =>
    rw [distinct_concat]
    rcases List.mem_append.mp h with h | h
    · split
      · exact ih h
      · exact (ih h).imp (List.mem_append_left _) fun ⟨u, hu, huv⟩ =>
          ⟨u, List.mem_append_left _ hu, huv⟩
    · obtain rfl := List.mem_singleton.mp h
      split
      · rename_i hany
        exact .inr (List.any_eq_true.mp hany)
      · exact .inl (List.mem_append_right _ (List.mem_singleton_self v))

/-! ## Properties of what is kept -/

variable {P : Value → Prop}

/-- **Every value has the property unless an earlier one is the same.** -/
def EachUnlessRepeated (P : Value → Prop) (vs : List Value) : Prop :=
  EachAfter (fun before v => P v ∨ ∃ w ∈ before, w.same v = true) vs

/-- **A property of integers is that of all values that a set keeps if every value has it unless an
earlier one is the same.** -/
theorem forall_mem_distinct_iff (hP : ∀ v, P v → ∃ n, v = .int n) :
    (∀ v ∈ distinct vs, P v) ↔ EachUnlessRepeated P vs := by
  induction vs using List.reverseRecOn with
  | nil => exact iff_of_true (fun _ h => absurd h List.not_mem_nil) eachAfter_nil
  | append_singleton vs v ih =>
    rw [EachUnlessRepeated, eachAfter_concat_iff, ← EachUnlessRepeated, ← ih, distinct_concat]
    split
    · rename_i hany
      obtain ⟨w, hw, hsame⟩ := List.any_eq_true.mp hany
      exact (and_iff_left (.inr ⟨w, mem_of_mem_distinct hw, hsame⟩)).symm
    · rename_i hany
      rw [List.forall_mem_append, List.forall_mem_singleton]
      refine and_congr_right fun hkept => (or_iff_left fun ⟨w, hw, hsame⟩ => hany ?_).symm
      -- what is kept of an earlier value is an integer, so it is the same as this one
      rcases exists_mem_distinct hw with hw | ⟨u, hu, huw⟩
      · exact List.any_eq_true.mpr ⟨w, hw, hsame⟩
      · obtain ⟨n, rfl⟩ := hP u (hkept u hu)
        have hv : v.toInt? = some n :=
          (toInt?_eq_of_same hsame).symm.trans (toInt?_eq_of_same huw).symm
        exact List.any_eq_true.mpr ⟨.int n, hu, same_of_toInt? rfl hv⟩

end Value

end FiniteAutomata
