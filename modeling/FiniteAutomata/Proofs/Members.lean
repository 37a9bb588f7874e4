import FiniteAutomata.Identity
import FiniteAutomata.Proofs.Outcome
import FiniteAutomata.Proofs.Sameness
import Mathlib.Data.List.Nodup
import Mathlib.Data.Set.Card

/-!
# Proofs/Members — sets of values are told apart by what they hold

Values that a set can hold are not told apart exactly if they have the same normal form
(`Value.same_iff_normal_eq`), save that what is no number is not even the same as itself. So a set
of values holds normal forms, its extent (`Members.extent`), which depends on the collection that it
is made of only through the values that occur there (`Members.extent_eq`). Two sets are the same
exactly if their extents are (`Members.same_iff_extent_eq`).
-/

namespace FiniteAutomata

/-- What is a number, but no integer, is the same as itself alone. -/
theorem Binary64.same_iff_eq {x y : Binary64} (hx : x.toInt? = none) (hself : x.same x = true) :
    x.same y = true ↔ x = y := by
  refine ⟨fun h => ?_, fun h => h ▸ hself⟩
  cases x with
  | nan => exact absurd hself Bool.false_ne_true
  | infinity s =>
    cases y with
    | infinity t => exact congrArg Binary64.infinity (eq_of_beq h)
    | _ => exact absurd h Bool.false_ne_true
  | finite s m e =>
    have hm : m ≠ 0 := by
      rintro rfl
      simp only [toInt?, toRatio?] at hx
      split at hx <;> simp at hx
    cases y with
    | finite t k f =>
      rcases of_decide_eq_true h with ⟨hzero, -⟩ | ⟨rfl, rfl, rfl⟩
      · exact absurd hzero hm
      · rfl
    | _ => exact absurd h Bool.false_ne_true

namespace Value

variable {v w : Value} {vs ws : List Value} {n : Int}

/-! ## Normal forms -/

mutual

/-- **What a value counts as** where values are told apart: an integer if it is equal to one. -/
def normal : Value → Value
  | .tuple vs => .tuple (normalAll vs)
  | .bool b => .int (if b then 1 else 0)
  | .float x => match x.toInt? with
    | some n => .int n
    | none => .float x
  | v => v

/-- What the members of a sequence count as. -/
def normalAll : List Value → List Value
  | [] => []
  | v :: vs => v.normal :: normalAll vs

end

theorem toInt?_normal (v : Value) : v.normal.toInt? = v.toInt? := by
  cases v with
  | float x =>
    rw [normal]
    cases h : x.toInt? with
    | some n => exact h.symm
    | none => rfl
  | _ => rfl

theorem normal_eq_int_iff : v.normal = .int n ↔ v.toInt? = some n := by
  constructor
  · intro h
    rw [← toInt?_normal, h]
    rfl
  · intro h
    cases v with
    | bool b => exact congrArg Value.int (Option.some.inj h)
    | int m => exact congrArg Value.int (Option.some.inj h)
    | float x => rw [normal, show x.toInt? = some n from h]
    | _ => nomatch h

/-- Values equal to an integer are told apart by it. -/
theorem same_iff_normal_eq_of_toInt? (hv : v.toInt? = some n) :
    v.same w = true ↔ v.normal = w.normal := by
  rw [normal_eq_int_iff.mpr hv, eq_comm (b := w.normal), normal_eq_int_iff]
  exact ⟨fun h => (toInt?_eq_of_same h) ▸ hv, fun hw => same_of_toInt? hv hw⟩

/-- A number that is no integer is told apart from everything but itself. -/
theorem same_float_iff {x : Binary64} (hx : x.toInt? = none) (hself : x.same x = true) :
    (float x).same w = true ↔ normal (.float x) = w.normal := by
  have hnormal : normal (.float x) = .float x := by rw [normal, hx]
  rw [hnormal]
  cases w with
  | float y =>
    cases hy : y.toInt? with
    | some n => simp [same, normal, toInt?, hx, hy, toFraction?]
    | none => simp [same, normal, toInt?, hx, hy, toFraction?, Binary64.same_iff_eq hx hself]
  | _ => simp [same, normal, toInt?, hx, toFraction?]

mutual

/-- **Values that a set can hold are told apart by their normal forms.** -/
theorem same_iff_normal_eq {v w : Value} (hhash : v.unhashable? = none) (hself : v.same v = true) :
    v.same w = true ↔ v.normal = w.normal := by
  cases v with
  | bool | int => exact same_iff_normal_eq_of_toInt? rfl
  | float x =>
    cases hx : x.toInt? with
    | some n => exact same_iff_normal_eq_of_toInt? hx
    | none =>
      have hself' : x.same x = true := by simpa [same, toInt?, toFraction?, hx] using hself
      exact same_float_iff hx hself'
  | tuple vs =>
    cases w with
    | tuple ws =>
      rw [normal, normal, Value.tuple.injEq]
      exact sameAll_iff_normalAll_eq hhash hself
    | float y => cases hy : y.toInt? <;> simp [same, normal, toInt?, toFraction?, hy]
    | _ => simp [same, normal, toInt?, toFraction?]
  | list | object => nomatch hhash
  | null | text | transition | nfa =>
    cases w with
    | float y => cases hy : y.toInt? <;> simp [same, normal, toInt?, toFraction?, hy]
    | _ => simp [same, normal, toInt?, toFraction?]

/-- Sequences of such values are told apart by the normal forms of their members. -/
theorem sameAll_iff_normalAll_eq {vs ws : List Value} (hhash : firstUnhashable? vs = none)
    (hself : sameAll vs vs = true) : sameAll vs ws = true ↔ normalAll vs = normalAll ws := by
  cases vs with
  | nil => cases ws <;> simp [sameAll, normalAll]
  | cons v vs =>
    cases ws with
    | nil => simp [sameAll, normalAll]
    | cons w ws =>
      rw [firstUnhashable?] at hhash
      split at hhash
      next => nomatch hhash
      next hv =>
        rw [sameAll, Bool.and_eq_true] at hself
        rw [sameAll, Bool.and_eq_true, normalAll, normalAll, List.cons.injEq,
          same_iff_normal_eq hv hself.1, sameAll_iff_normalAll_eq hhash hself.2]

end

/-! ## What a set keeps of a collection -/

/-- **Each value is the same as itself**, as all are but those that hold what is no number. -/
def AllDefinite (vs : List Value) : Prop := ∀ v ∈ vs, v.same v = true

/-- A set can hold each value. -/
def AllHashable (vs : List Value) : Prop := ∀ v ∈ vs, v.unhashable? = none

/-- A value is the same as one of a list if the normal form of one is its own. -/
theorem any_same_iff (hhash : AllHashable vs) (hself : AllDefinite vs) :
    vs.any (same · v) = true ↔ v.normal ∈ vs.map normal := by
  rw [List.any_eq_true, List.mem_map]
  exact exists_congr fun u => and_congr_right fun hu => same_iff_normal_eq (hhash u hu) (hself u hu)

/-- **The normal forms of what is kept are those that occur**, each once. -/
theorem normal_distinct (hhash : AllHashable vs) (hself : AllDefinite vs) :
    ((distinct vs).map normal).Nodup ∧
      ∀ x, x ∈ (distinct vs).map normal ↔ x ∈ vs.map normal := by
  induction vs using List.reverseRecOn with
  | nil => exact ⟨List.nodup_nil, fun _ => Iff.rfl⟩
  | append_singleton vs v ih =>
    have hhash' : AllHashable vs := fun u hu => hhash u (List.mem_append_left _ hu)
    have hself' : AllDefinite vs := fun u hu => hself u (List.mem_append_left _ hu)
    obtain ⟨hnodup, hmem⟩ := ih hhash' hself'
    have hany := any_same_iff (v := v) (fun u hu => hhash' u (mem_of_mem_distinct hu))
      fun u hu => hself' u (mem_of_mem_distinct hu)
    rw [distinct_concat]
    split
    next hold =>
      refine ⟨hnodup, fun x => ?_⟩
      rw [hmem, List.map_append, List.mem_append]
      refine (or_iff_left_of_imp fun hx => ?_).symm
      obtain rfl := List.mem_singleton.mp hx
      exact (hmem _).mp (hany.mp hold)
    next hnew =>
      rw [hany] at hnew
      refine ⟨?_, fun x => ?_⟩
      · rw [List.map_append]
        exact List.nodup_append'.mpr ⟨hnodup, List.nodup_singleton _,
          List.disjoint_singleton.mpr hnew⟩
      · rw [List.map_append, List.map_append, List.mem_append, List.mem_append, hmem]

/-- The values of a collection are all the same as themselves. -/
def Definite (xs : Value) : Prop := ∀ vs, xs.members = .ok vs → AllDefinite vs

theorem definite_ints (l : List Int) : (Value.list (l.map .int)).Definite := by
  intro vs hvs
  obtain rfl := Except.ok.inj hvs
  exact List.forall_mem_map.mpr fun n _ => same_of_toInt? rfl rfl

end Value

namespace Members

open Value

variable {S T : Members} {xs : Value}

/-- A set is made of a collection if it can hold the values there. -/
theorem ofValue_eq_ok : ofValue xs = .ok S ↔
    ∃ vs, xs.members = .ok vs ∧ AllHashable vs ∧ ⟨distinct vs⟩ = S := by
  have hcheck : ∀ v : Value, v.checkHashable = .ok () ↔ v.unhashable? = none := fun v => by
    rw [checkHashable]
    cases v.unhashable? <;> simp
  have hdistinct : ∀ l, xs.distinctMembers = .ok l ↔
      ∃ vs, xs.members = .ok vs ∧ AllHashable vs ∧ distinct vs = l := fun l => by
    rw [distinctMembers, bind_eq_ok]
    refine exists_congr fun vs => and_congr_right fun _ => ?_
    rw [check_bind_eq_ok, forM_eq_ok_iff]
    simp only [hcheck]
    exact and_congr_right fun _ => ⟨Except.ok.inj, congrArg _⟩
  rw [ofValue, bind_eq_ok]
  simp only [hdistinct]
  constructor
  · rintro ⟨_, ⟨vs, hvs, hhash, rfl⟩, hS⟩
    exact ⟨vs, hvs, hhash, Except.ok.inj hS⟩
  · rintro ⟨vs, hvs, hhash, rfl⟩
    exact ⟨_, ⟨vs, hvs, hhash, rfl⟩, rfl⟩

/-! ## Extents -/

/-- **What a set of values holds**, as far as values are told apart. -/
def extent (S : Members) : Set Value := {x | x ∈ S.values.map normal}

/-- **A set can hold the values**, each is the same as itself, and no two are the same. -/
structure Proper (S : Members) : Prop where
  hashable : AllHashable S.values
  definite : AllDefinite S.values
  nodup : (S.values.map normal).Nodup

/-- **What the set made of a collection holds** is what occurs there. -/
theorem extent_of_ofValue {vs : List Value} (hS : ofValue xs = .ok S) (hxs : xs.members = .ok vs)
    (hself : AllDefinite vs) : S.extent = {x | x ∈ vs.map normal} := by
  obtain ⟨_, hxs', hhash, rfl⟩ := ofValue_eq_ok.mp hS
  obtain rfl := Except.ok.inj (hxs.symm.trans hxs')
  exact Set.ext (normal_distinct hhash hself).2

theorem proper_of_ofValue (hS : ofValue xs = .ok S) (hself : xs.Definite) : S.Proper := by
  obtain ⟨vs, hvs, hhash, rfl⟩ := ofValue_eq_ok.mp hS
  have hself := hself vs hvs
  exact ⟨fun v hv => hhash v (mem_of_mem_distinct hv), fun v hv => hself v (mem_of_mem_distinct hv),
    (normal_distinct hhash hself).1⟩

/-- **The values of a set make up the same set again.** -/
theorem Proper.exists_ofValue_list (h : S.Proper) : ∃ T, ofValue (.list S.values) = .ok T ∧
    (Value.list S.values).Definite ∧ T.extent = S.extent := by
  have hT : ofValue (.list S.values) = .ok ⟨distinct S.values⟩ :=
    ofValue_eq_ok.mpr ⟨S.values, rfl, h.hashable, rfl⟩
  refine ⟨_, hT, fun vs hvs => ?_, extent_of_ofValue hT rfl h.definite⟩
  exact Except.ok.inj hvs ▸ h.definite

/-- Any integers make up a set. -/
theorem exists_ofValue_ints (l : List Int) : ∃ S, ofValue (.list (l.map .int)) = .ok S ∧
    S.extent = {x | x ∈ l.map .int} := by
  have hS : ofValue (.list (l.map .int)) = .ok ⟨distinct (l.map .int)⟩ :=
    ofValue_eq_ok.mpr ⟨_, rfl, List.forall_mem_map.mpr fun _ _ => rfl, rfl⟩
  refine ⟨_, hS, ?_⟩
  rw [extent_of_ofValue hS rfl (definite_ints l _ rfl), List.map_map]
  rfl

namespace Proper

variable (hS : S.Proper) (hT : T.Proper)

include hS hT

/-- **Two sets are the same if they hold the same.** -/
theorem same_iff_extent_eq : Identity.same S T = true ↔ S.extent = T.extent := by
  have hsame : Identity.same S T = true ↔
      (S.values.map normal).length = (T.values.map normal).length ∧
        ∀ x ∈ S.values.map normal, x ∈ T.values.map normal := by
    rw [List.forall_mem_map, List.length_map, List.length_map]
    simp only [← any_same_iff hT.hashable hT.definite]
    exact Bool.and_eq_true_iff.trans (and_congr beq_iff_eq List.all_eq_true)
  rw [hsame]
  constructor
  · rintro ⟨hlen, hsub⟩
    have hperm := (hS.nodup.subperm hsub).perm_of_length_le hlen.ge
    exact Set.ext fun x => hperm.mem_iff
  · intro heq
    have hperm := (List.perm_ext_iff_of_nodup hS.nodup hT.nodup).mpr fun x => Set.ext_iff.mp heq x
    exact ⟨hperm.length_eq, fun x => hperm.mem_iff.mp⟩

end Proper

end Members

end FiniteAutomata
