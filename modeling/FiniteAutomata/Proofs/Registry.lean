import FiniteAutomata.Proofs.Entry
import FiniteAutomata.Proofs.IdentityTable
import FiniteAutomata.Proofs.Members
import FiniteAutomata.Registry

/-!
# Proofs/Registry — sets keep the numbers under which they are first put in

The sets that have been put in, each as often as it was, are a list of extents
(`Registry.putIn`). A registry is sound (`Registry.Sound`) if its index and its own list say the
same, if the place of a set in the list is the number of sets that were put in before it
(`FirstAfter`), and if its own list was never handed out. Every request keeps it sound
(`Registry.Sound.after`), and a sound registry replies as the list of extents says
(`Registry.Sound.answers`).
-/

namespace FiniteAutomata

/-! ## First entries of their kind -/

section Entries

variable {α : Type} {l m : List α} {i : Nat} {x y : α}

/-- **An entry like this one comes first after so many different ones.** -/
def FirstAfter (l : List α) (i : Nat) (x : α) : Prop :=
  ∃ before after, l = before ++ x :: after ∧ x ∉ before ∧ {y | y ∈ before}.ncard = i

theorem FirstAfter.mem (h : FirstAfter l i x) : x ∈ l := by
  obtain ⟨before, after, rfl, -⟩ := h
  exact List.mem_append_right _ List.mem_cons_self

theorem FirstAfter.append (h : FirstAfter l i x) : FirstAfter (l ++ m) i x := by
  obtain ⟨before, after, rfl, hnot, hcount⟩ := h
  exact ⟨before, after ++ m, by simp, hnot, hcount⟩

/-- One more entry is the first of its kind if it is a new one. -/
theorem firstAfter_concat_iff : FirstAfter (l ++ [y]) i x ↔
    FirstAfter l i x ∨ y = x ∧ x ∉ l ∧ {z | z ∈ l}.ncard = i := by
  constructor
  · rintro ⟨before, after, heq, hnot, hcount⟩
    rcases List.eq_nil_or_concat after with rfl | ⟨rest, z, rfl⟩
    · obtain ⟨rfl, hlast⟩ := List.append_inj' heq rfl
      exact .inr ⟨List.singleton_inj.mp hlast, hnot, hcount⟩
    · have heq' : l ++ [y] = (before ++ x :: rest) ++ [z] := by simpa using heq
      exact .inl ⟨before, rest, (List.append_inj' heq' rfl).1, hnot, hcount⟩
  · rintro (h | ⟨rfl, hnot, hcount⟩)
    · exact h.append
    · exact ⟨l, [], rfl, hnot, hcount⟩

theorem exists_firstAfter (h : x ∈ l) : ∃ i, FirstAfter l i x := by
  induction l using List.reverseRecOn with
  | nil => exact absurd h List.not_mem_nil
  | append_singleton l y ih =>
    by_cases hx : x ∈ l
    · exact (ih hx).imp fun _ h => h.append
    · obtain rfl := List.mem_singleton.mp ((List.mem_append.mp h).resolve_left hx)
      exact ⟨_, firstAfter_concat_iff.mpr (.inr ⟨rfl, hx, rfl⟩)⟩

open scoped Classical in
/-- A list without repetitions has as many entries as different ones. -/
theorem ncard_setOf_mem (h : l.Nodup) : {x | x ∈ l}.ncard = l.length := by
  rw [← List.toFinset_card_of_nodup h, ← Set.ncard_coe_finset, List.coe_toFinset]

end Entries

namespace Registry

open Members

variable {R : Registry} {seen : List (Set Value)} {S : Members} {E : Set Value} {i : Nat}

/-! ## What a registry holds -/

/-- The sets as the table that numbers them. -/
def table (R : Registry) : IdentityTable Members := ⟨R.sets⟩

/-- **Index and list agree with each other and with what was put in**, and nobody else has the
list. -/
structure Sound (R : Registry) (seen : List (Set Value)) : Prop where
  index_eq : R.index = R.sets.zipIdx
  proper : ∀ S ∈ R.sets, S.Proper
  nodup : (R.sets.map extent).Nodup
  firstAfter_iff : ∀ i E, (R.sets.map extent)[i]? = some E ↔ FirstAfter seen i E
  own_lt : ownAddress < R.lists.length
  own_notMem : ownAddress ∉ R.handedOut

theorem sound_new : new.Sound [] where
  index_eq := rfl
  proper _ hS := absurd hS List.not_mem_nil
  nodup := List.nodup_nil
  firstAfter_iff i E := iff_of_false (by simp [new, sets, listAt, ownAddress])
    fun h => absurd h.mem List.not_mem_nil
  own_lt := Nat.one_pos
  own_notMem := List.not_mem_nil

namespace Sound

variable (h : R.Sound seen)

include h

theorem mem_extents_iff : E ∈ R.sets.map extent ↔ E ∈ seen := by
  rw [List.mem_iff_getElem?]
  simp only [h.firstAfter_iff]
  exact ⟨fun ⟨_, hi⟩ => hi.mem, exists_firstAfter⟩

/-- **There are as many sets as different ones were put in.** -/
theorem length_sets : R.sets.length = {E | E ∈ seen}.ncard := by
  have hset : {E | E ∈ seen} = {E | E ∈ R.sets.map extent} :=
    Set.ext fun E => h.mem_extents_iff.symm
  rw [hset, ncard_setOf_mem h.nodup, List.length_map]

/-- **The index finds what the table finds.** -/
theorem indexOf?_eq : R.indexOf? S = R.table.indexOf? S := by
  rw [Registry.indexOf?, h.index_eq]
  exact (List.findIdx?_eq_fst_find?_zipIdx (p := fun T => Identity.same T S)).symm

theorem indexOf?_eq_some_iff (hS : S.Proper) :
    R.indexOf? S = some i ↔ FirstAfter seen i S.extent := by
  rw [h.indexOf?_eq, ← h.firstAfter_iff]
  exact IdentityTable.indexOf?_eq_some_iff_of
    (fun T hT => (h.proper T hT).same_iff_extent_eq hS) h.nodup

theorem indexOf?_eq_none_iff (hS : S.Proper) : R.indexOf? S = none ↔ S.extent ∉ seen := by
  rw [h.indexOf?_eq, ← h.mem_extents_iff]
  exact IdentityTable.indexOf?_eq_none_iff_of fun T hT => (h.proper T hT).same_iff_extent_eq hS

/-- The own list is the one that is put under its address. -/
theorem listAt_set (l : List Members) : (R.lists.set ownAddress l)[ownAddress]?.getD [] = l := by
  rw [List.getElem?_set_self h.own_lt]
  rfl

/-! ### One request -/

/-- **A set that is put in gets the next number if it is new**, and keeps the one it has if not. -/
theorem place (hS : S.Proper) : (R.place S).2.Sound (seen ++ [S.extent]) := by
  cases hi : R.indexOf? S with
  | some i =>
    have hknown : S.extent ∈ seen := ((h.indexOf?_eq_some_iff hS).mp hi).mem
    rw [Registry.place, hi]
    refine { h with firstAfter_iff := fun j E => ?_ }
    rw [h.firstAfter_iff, firstAfter_concat_iff]
    exact (or_iff_left fun ⟨he, hnot, _⟩ => hnot (he ▸ hknown)).symm
  | none =>
    have hnew : S.extent ∉ R.sets.map extent := by
      rw [h.mem_extents_iff]
      exact (h.indexOf?_eq_none_iff hS).mp hi
    rw [Registry.place, hi]
    have hsets : Registry.sets { R with
        index := R.index ++ [(S, R.sets.length)]
        lists := R.lists.set ownAddress (R.sets ++ [S]) } = R.sets ++ [S] := h.listAt_set _
    refine ⟨?_, ?_, ?_, fun j E => ?_, ?_, h.own_notMem⟩
    · dsimp only
      rw [hsets, h.index_eq, List.zipIdx_append]
      simp
    · rw [hsets]
      exact List.forall_mem_append.mpr ⟨h.proper, List.forall_mem_singleton.mpr hS⟩
    · rw [hsets, List.map_append]
      exact List.nodup_append'.mpr ⟨h.nodup, List.nodup_singleton _,
        List.disjoint_singleton.mpr hnew⟩
    · rw [hsets, List.map_append, List.map_singleton, getElem?_concat_eq_some_iff,
        h.firstAfter_iff, firstAfter_concat_iff, List.length_map, h.length_sets]
      refine or_congr_right ?_
      rw [h.mem_extents_iff] at hnew
      constructor
      · rintro ⟨rfl, rfl⟩
        exact ⟨rfl, hnew, rfl⟩
      · rintro ⟨rfl, -, rfl⟩
        exact ⟨rfl, rfl⟩
    · exact (List.length_set ..).symm ▸ h.own_lt

/-- **A registry numbers sets as the table does** that has its sets. -/
theorem place_eq_insert : (R.place S).1 = ((R.table.insert S).1, (R.table.insert S).2.1) ∧
    (R.place S).2.table = (R.table.insert S).2.2 := by
  rw [Registry.place, IdentityTable.insert, ← h.indexOf?_eq]
  cases R.indexOf? S with
  | some i => exact ⟨rfl, rfl⟩
  | none => exact ⟨rfl, congrArg IdentityTable.mk (h.listAt_set _)⟩

/-- A registry whose own list is the same, under an address that it has not handed out. -/
theorem congr {R' : Registry} (hindex : R'.index = R.index) (hsets : R'.sets = R.sets)
    (hlt : ownAddress < R'.lists.length) (hnot : ownAddress ∉ R'.handedOut) : R'.Sound seen where
  index_eq := by rw [hindex, hsets, h.index_eq]
  proper := hsets ▸ h.proper
  nodup := hsets ▸ h.nodup
  firstAfter_iff := hsets ▸ h.firstAfter_iff
  own_lt := hlt
  own_notMem := hnot

/-- **A copy is handed out under a new address**, so the registry keeps its own to itself. -/
theorem handOut : R.handOut.Sound seen := by
  have hsets : R.handOut.sets = R.sets :=
    congrArg (·.getD []) (List.getElem?_append_left h.own_lt)
  refine h.congr rfl hsets ?_ ?_
  · exact Nat.lt_of_lt_of_le h.own_lt (by simp [Registry.handOut])
  · refine fun hmem => (List.mem_append.mp hmem).elim h.own_notMem fun hlast => ?_
    exact Nat.ne_of_lt h.own_lt (List.mem_singleton.mp hlast)

/-- **A change of what was handed out** is one of another list. -/
theorem change (k : Nat) (l : List Members) : (R.change k l).Sound seen := by
  rw [Registry.change]
  cases ha : R.handedOut[k]? with
  | none => exact h
  | some a =>
    have hne : a ≠ ownAddress := fun he => h.own_notMem (he ▸ List.mem_of_getElem? ha)
    have hsets : Registry.sets { R with lists := R.lists.set a l } = R.sets := by
      rw [sets, sets, listAt, listAt, List.getElem?_set_ne hne]
    exact h.congr rfl hsets ((List.length_set ..).symm ▸ h.own_lt) h.own_notMem

end Sound

/-! ## What was put in -/

/-- The extents that a request puts in. -/
def Request.putIn : Request → List (Set Value)
  | .insert xs => match Members.ofValue xs with
    | .ok S => [S.extent]
    | .error _ => []
  | _ => []

/-- **The extents that requests put in**, in turn. -/
def putIn (requests : List Request) : List (Set Value) := requests.flatMap Request.putIn

/-- The values that a request puts in are the same as themselves. -/
def Request.Definite : Request → Prop
  | .insert xs => xs.Definite
  | _ => True

/-- **Each request keeps a registry sound.** -/
theorem Sound.after (h : R.Sound seen) {r : Request} (hr : r.Definite) :
    (R.after r).Sound (seen ++ r.putIn) := by
  cases r with
  | insert xs =>
    rw [Registry.after, Request.putIn]
    cases hS : Members.ofValue xs with
    | error e => exact (List.append_nil seen).symm ▸ h
    | ok S => exact h.place (proper_of_ofValue hS hr)
  | identities => exact (List.append_nil seen).symm ▸ h.handOut
  | change k l => exact (List.append_nil seen).symm ▸ h.change k l
  | _ => exact (List.append_nil seen).symm ▸ h

/-- **What requests leave behind is sound.** -/
theorem sound_afterAll {requests : List Request} (h : ∀ r ∈ requests, r.Definite) :
    (new.afterAll requests).Sound (putIn requests) := by
  induction requests using List.reverseRecOn with
  | nil => exact sound_new
  | append_singleton requests r ih =>
    obtain ⟨hbefore, hr⟩ := List.forall_mem_append.mp h
    have hstep := (ih hbefore).after (hr r (List.mem_singleton_self r))
    rwa [afterAll, List.foldl_append, putIn, List.flatMap_append, List.flatMap_singleton]

/-! ## Replies -/

/-- **A registry replies as the extents say that were put in**: it has as many sets as there are
different ones, each under the number of those that were put in before it. What is asked of a
collection depends on its extent alone. -/
structure Answers (R : Registry) (seen : List (Set Value)) : Prop where
  size : R.reply .size = .size {E | E ∈ seen}.ncard
  identities : ∃ l, R.reply .identities = .sets l ∧ l.length = {E | E ∈ seen}.ncard ∧
    (l.map extent).Nodup ∧ ∀ i E, (l.map extent)[i]? = some E ↔ FirstAfter seen i E
  identity : ∀ i < {E | E ∈ seen}.ncard, ∃ S, R.reply (.identity (.int i)) = .set (.ok S) ∧
    FirstAfter seen i S.extent ∧ R.reply (.indexOf (.list S.values)) = .number (.ok (some i))
  insert_new : ∀ xs S, Members.ofValue xs = .ok S → xs.Definite → S.extent ∉ seen →
    R.reply (.insert xs) = .placed (.ok ({E | E ∈ seen}.ncard, true))
  insert_known : ∀ xs S i, Members.ofValue xs = .ok S → xs.Definite → FirstAfter seen i S.extent →
    R.reply (.insert xs) = .placed (.ok (i, false))
  indexOf_some_iff : ∀ xs S i, Members.ofValue xs = .ok S → xs.Definite →
    (R.reply (.indexOf xs) = .number (.ok (some i)) ↔ FirstAfter seen i S.extent)
  indexOf_none_iff : ∀ xs S, Members.ofValue xs = .ok S → xs.Definite →
    (R.reply (.indexOf xs) = .number (.ok none) ↔ S.extent ∉ seen)
  contains_iff : ∀ xs S, Members.ofValue xs = .ok S → xs.Definite →
    (R.reply (.contains xs) = .verdict (.ok true) ↔ S.extent ∈ seen) ∧
    (R.reply (.contains xs) = .verdict (.ok false) ↔ S.extent ∉ seen)

namespace Sound

variable (h : R.Sound seen) {xs : Value} (hxs : Members.ofValue xs = .ok S)

include hxs in
theorem reply_insert : R.reply (.insert xs) = .placed (.ok (R.place S).1) := by
  rw [reply, hxs]
  rfl

include hxs in
theorem reply_indexOf : R.reply (.indexOf xs) = .number (.ok (R.indexOf? S)) := by
  rw [reply, hxs]
  rfl

include hxs in
theorem reply_contains : R.reply (.contains xs) = .verdict (.ok (R.indexOf? S).isSome) := by
  rw [reply, hxs]
  rfl

include h in
/-- The set of a number that was given. -/
theorem exists_identity (hfirst : FirstAfter seen i E) :
    ∃ S ∈ R.sets, R.reply (.identity (.int i)) = .set (.ok S) ∧ S.extent = E := by
  have hget := (h.firstAfter_iff i E).mpr hfirst
  rw [List.getElem?_map, Option.map_eq_some_iff] at hget
  obtain ⟨S, hS, rfl⟩ := hget
  obtain ⟨hlt, rfl⟩ := List.getElem?_eq_some_iff.mp hS
  refine ⟨R.sets[i], List.getElem_mem hlt, ?_, rfl⟩
  rw [reply, Value.toPlace_int hlt]
  rfl

include h in
/-- **A sound registry replies as it should.** -/
theorem answers : R.Answers seen where
  size := congrArg Reply.size h.length_sets
  identities := ⟨R.sets, rfl, h.length_sets, h.nodup, h.firstAfter_iff⟩
  identity i hi := by
    have hlt : i < (R.sets.map extent).length := by
      rwa [List.length_map, h.length_sets]
    have hfirst := (h.firstAfter_iff i _).mp (List.getElem?_eq_getElem hlt)
    obtain ⟨S, hmem, hreply, hextent⟩ := h.exists_identity hfirst
    obtain ⟨T, hT, hdefinite, hsame⟩ := (h.proper S hmem).exists_ofValue_list
    rw [← hextent] at hfirst
    refine ⟨S, hreply, hfirst, ?_⟩
    rw [reply_indexOf hT, (h.indexOf?_eq_some_iff (proper_of_ofValue hT hdefinite)).mpr]
    exact hsame.symm ▸ hfirst
  insert_new xs S hS hxs hnew := by
    have hnone := (h.indexOf?_eq_none_iff (proper_of_ofValue hS hxs)).mpr hnew
    rw [reply_insert hS, Registry.place, hnone, ← h.length_sets]
  insert_known xs S i hS hxs hfirst := by
    have hsome := (h.indexOf?_eq_some_iff (proper_of_ofValue hS hxs)).mpr hfirst
    rw [reply_insert hS, Registry.place, hsome]
  indexOf_some_iff xs S i hS hxs := by
    rw [reply_indexOf hS, ← h.indexOf?_eq_some_iff (proper_of_ofValue hS hxs)]
    simp
  indexOf_none_iff xs S hS hxs := by
    rw [reply_indexOf hS, ← h.indexOf?_eq_none_iff (proper_of_ofValue hS hxs)]
    simp
  contains_iff xs S hS hxs := by
    have hnone := h.indexOf?_eq_none_iff (proper_of_ofValue hS hxs)
    rw [reply_contains hS, ← not_not (a := S.extent ∈ seen), ← hnone]
    cases R.indexOf? S <;> simp

end Sound

/-- **The number that is replied when a set is put in** is that of its first kind in the end. -/
theorem exists_reply_insert {before after : List Request} {xs : Value}
    (h : ∀ r ∈ before ++ .insert xs :: after, r.Definite) (hS : Members.ofValue xs = .ok S) :
    ∃ i isNew, (new.afterAll before).reply (.insert xs) = .placed (.ok (i, isNew)) ∧
      FirstAfter (putIn (before ++ .insert xs :: after)) i S.extent := by
  obtain ⟨hbefore, hrest⟩ := List.forall_mem_append.mp h
  obtain ⟨hxs, -⟩ := List.forall_mem_cons.mp hrest
  have hanswers := (sound_afterAll hbefore).answers
  have hput : putIn (before ++ .insert xs :: after) =
      putIn before ++ [S.extent] ++ putIn after := by
    simp [putIn, Request.putIn, hS]
  rw [hput]
  by_cases hold : S.extent ∈ putIn before
  · obtain ⟨i, hi⟩ := exists_firstAfter hold
    exact ⟨i, false, hanswers.insert_known xs S i hS hxs hi, hi.append.append⟩
  · refine ⟨_, true, hanswers.insert_new xs S hS hxs hold, ?_⟩
    exact (firstAfter_concat_iff.mpr (.inr ⟨rfl, hold, rfl⟩)).append

/-- **Sets keep the numbers under which they are first put in.** At every point of a sequence of
requests the registry replies as the sets say that were put in so far. And a set that was put in
before was given a number then, under which it is found ever since, however its values are listed,
whatever was asked in between and whatever was done to lists that were handed out. -/
theorem reply_afterAll {requests : List Request} (h : ∀ r ∈ requests, r.Definite) :
    (new.afterAll requests).Answers (putIn requests) ∧
    ∀ before xs after, requests = before ++ .insert xs :: after → ∀ S, Members.ofValue xs = .ok S →
      ∃ i isNew, (new.afterAll before).reply (.insert xs) = .placed (.ok (i, isNew)) ∧
        (∃ T, (new.afterAll requests).reply (.identity (.int i)) = .set (.ok T) ∧
          T.extent = S.extent) ∧
        ∀ ys T, Members.ofValue ys = .ok T → ys.Definite → T.extent = S.extent →
          (new.afterAll requests).reply (.insert ys) = .placed (.ok (i, false)) ∧
          (new.afterAll requests).reply (.indexOf ys) = .number (.ok (some i)) := by
  have hsound := sound_afterAll h
  refine ⟨hsound.answers, ?_⟩
  rintro before xs after rfl S hS
  obtain ⟨i, isNew, hreply, hfirst⟩ := exists_reply_insert h hS
  obtain ⟨U, -, hidentity⟩ := hsound.exists_identity hfirst
  refine ⟨i, isNew, hreply, ⟨U, hidentity⟩, fun ys T hT hys hextent => ?_⟩
  rw [← hextent] at hfirst
  exact ⟨hsound.answers.insert_known ys T i hT hys hfirst,
    (hsound.answers.indexOf_some_iff ys T i hT hys).mpr hfirst⟩

theorem reply_afterAll_handedOut :
    let requests : List Request :=
      [.insert (.list [.int 2, .int 5]), .identities, .change 0 [], .insert (.list [])]
    (∀ r ∈ requests, r.Definite) ∧ (new.afterAll requests).reply (.indexOf (.list
      [.int 5, .int 2, .int 5])) = .number (.ok (some 0)) := by
  intro requests
  have hdefinite : ∀ r ∈ requests, r.Definite := by
    have hints := Value.definite_ints
    simp only [requests, List.forall_mem_cons]
    exact ⟨hints [2, 5], trivial, trivial, hints [], fun _ h => absurd h List.not_mem_nil⟩
  obtain ⟨S, hS, hextent⟩ := exists_ofValue_ints [2, 5]
  obtain ⟨T, hT, hextent'⟩ := exists_ofValue_ints [5, 2, 5]
  obtain ⟨-, hnumber⟩ := reply_afterAll hdefinite
  obtain ⟨i, isNew, hreply, -, hfound⟩ := hnumber [] (.list ([2, 5].map .int)) _ rfl S hS
  have heq : T.extent = S.extent := by
    rw [hextent, hextent']
    ext x
    grind
  have hfirst : new.reply (.insert (.list ([2, 5].map .int))) = .placed (.ok (0, true)) :=
    Sound.reply_insert hS
  obtain ⟨rfl, rfl⟩ := Prod.mk.inj (Except.ok.inj (Reply.placed.inj (hfirst.symm.trans hreply)))
  exact ⟨hdefinite, (hfound _ T hT (Value.definite_ints _) heq).2⟩

end Registry

end FiniteAutomata
