import FiniteAutomata.Proofs.Nfa.Assembly
import Mathlib.Data.Option.Basic

/-!
# Proofs/Nfa/Refusal — why parts make no automaton

Every check of a part of an automaton complains about the configuration. Its words may have integers
in them, and one that is too long cannot be written: this takes the place of the complaint, and
nothing else does (`Error.IsComplaint`). So it is for transitions
(`Transition.isComplaint_of_ofMember_eq_error`) and for whole automata
(`Nfa.isComplaint_of_ofValues_eq_error_of_members`), where one of the integers given must be too
long.
-/

namespace FiniteAutomata

/-! ## Complaints -/

/-- **The error complains about a configuration**, or, which takes a `long` integer, it is that the
complaint cannot be put into words. -/
def Error.IsComplaint (long : Prop) (e : Error) : Prop :=
  e.category = .configuration ∨ long ∧ e = .unwritable .longInteger

variable {long : Prop} {e : Error} {o : Obstacle}

theorem Error.IsComplaint.mono {long' : Prop} (h : e.IsComplaint long) (himp : long → long') :
    e.IsComplaint long' :=
  h.imp_right fun h => ⟨himp h.1, h.2⟩

/-- A complaint whose integers can all be written is in words. -/
theorem Error.IsComplaint.category_eq (h : e.IsComplaint long) (hshort : ¬ long) :
    e.category = .configuration :=
  h.resolve_right fun h => hshort h.1

theorem Error.isComplaint_ofMalformed {cause : Malformed}
    (h : ∀ o ∈ cause.obstacles, long ∧ o = .reason .longInteger) :
    (ofMalformed cause).IsComplaint long := by
  unfold ofMalformed
  cases hos : cause.obstacles with
  | nil => exact .inl rfl
  | cons o os =>
    obtain ⟨hlong, rfl⟩ := h o (hos ▸ List.mem_cons_self ..)
    exact .inr ⟨hlong, rfl⟩

theorem eq_long_of_mem_integer {n : Int} (h : o ∈ obstacleOf (unwritableInteger? n)) :
    isLongInteger n ∧ o = .reason .longInteger := by
  obtain ⟨r, hr, rfl⟩ := mem_obstacleOf.mp h
  unfold unwritableInteger? at hr
  split at hr
  · rename_i hlong
    exact ⟨hlong, (Option.some.inj hr) ▸ rfl⟩
  · exact nomatch hr

/-- The source or the target is too long to be written. -/
def Transition.IsLong (t : Transition) : Prop := isLongInteger t.source ∨ isLongInteger t.target

theorem Transition.eq_long_of_mem {t : Transition} (h : o ∈ obstacleOf t.unwritable?) :
    t.IsLong ∧ o = .reason .longInteger := by
  obtain ⟨r, hr, rfl⟩ := mem_obstacleOf.mp h
  obtain hr | ⟨_, hr⟩ := (Option.orElse_eq_some _ _ _).mp hr
  · exact (eq_long_of_mem_integer (mem_obstacleOf.mpr ⟨r, hr, rfl⟩)).imp_left .inl
  · exact (eq_long_of_mem_integer (mem_obstacleOf.mpr ⟨r, hr, rfl⟩)).imp_left .inr

/-- Nothing keeps a text from being written. -/
theorem Value.obstaclesOfAll_texts (as : List Text) : obstaclesOfAll (as.map .text) = [] := by
  induction as with
  | nil => rfl
  | cons a as ih => exact ih

/-! ## Checks -/

namespace Value

variable {field : Text} {v : Value}

theorem category_of_checkInt_eq_error (h : v.checkInt field = .error e) :
    e.category = .configuration := by
  unfold checkInt at h
  split at h
  · exact nomatch h
  · exact Except.error.inj h ▸ rfl

theorem category_of_checkText_eq_error (h : v.checkText field = .error e) :
    e.category = .configuration := by
  unfold checkText at h
  split at h
  · exact nomatch h
  · exact Except.error.inj h ▸ rfl

theorem category_of_checkKind_eq_error {k : Kind} (h : v.checkKind k field = .error e) :
    e.category = .configuration := by
  unfold checkKind at h
  split at h
  · exact nomatch h
  · exact Except.error.inj h ▸ rfl

theorem category_of_checkArray_eq_error {k : Kind} {allowEmpty : Bool}
    (h : v.checkArray k .list field allowEmpty = .error e) : e.category = .configuration := by
  by_cases hlist : ∃ vs, v = .list vs
  · obtain ⟨vs, rfl⟩ := hlist
    rw [checkArray_list] at h
    split at h
    · exact Except.error.inj h ▸ rfl
    · obtain ⟨w, _, hw⟩ := exists_of_forM_eq_error h
      exact category_of_checkKind_eq_error hw
  · obtain h | ⟨_, hkind, _⟩ := bind_eq_error.mp h
    · exact category_of_checkKind_eq_error h
    · exact absurd (isOfKind_list.mp (checkKind_eq_ok.mp hkind)) hlist

theorem isComplaint_noSuchState {s : State} {n : Int} :
    (Error.ofMalformed (.noSuchState field s (.int n))).IsComplaint
      (isLongInteger s ∨ isLongInteger n) := by
  refine Error.isComplaint_ofMalformed fun _ h => ?_
  rw [Malformed.obstacles, Value.obstacles] at h
  obtain h | h := List.mem_append.mp h
  · exact (eq_long_of_mem_integer h).imp_left .inl
  · exact (eq_long_of_mem_integer h).imp_left .inr

/-- The value is an integer that is too long to be written. -/
def IsLong (v : Value) : Prop := ∃ s, v = .int s ∧ isLongInteger s

theorem isLong_int {s : Int} : (Value.int s).IsLong ↔ isLongInteger s :=
  ⟨fun ⟨_, heq, h⟩ => Value.int.inj heq ▸ h, fun h => ⟨s, rfl, h⟩⟩

theorem isComplaint_of_checkState_eq_error {n : Int} (h : v.checkState n field = .error e) :
    e.IsComplaint (v.IsLong ∨ isLongInteger n) := by
  obtain h | ⟨s, hs, hrange⟩ := bind_eq_error.mp h
  · exact .inl (category_of_checkInt_eq_error h)
  · obtain rfl := checkInt_eq_ok.mp hs
    split at hrange
    · exact nomatch hrange
    · exact Except.error.inj hrange ▸ isComplaint_noSuchState.mono (Or.imp_left isLong_int.mpr)

end Value

/-! ## Parts -/

theorem Transition.category_of_ofInputs_eq_error {s t : State} {as : List Symbol}
    (h : ofInputs s t as = .error e) : e.category = .configuration := by
  unfold ofInputs at h
  split at h
  · exact nomatch h
  · split at h
    · exact Except.error.inj h ▸ rfl
    · exact nomatch h

theorem Transition.category_of_ofValues_eq_error {source target inputs : Value}
    (h : ofValues source target inputs = .error e) : e.category = .configuration := by
  obtain h | ⟨_, _, h⟩ := bind_eq_error.mp h
  · exact Value.category_of_checkInt_eq_error h
  obtain h | ⟨_, _, h⟩ := bind_eq_error.mp h
  · exact Value.category_of_checkInt_eq_error h
  obtain h | ⟨_, harray, h⟩ := bind_eq_error.mp h
  · exact Value.category_of_checkArray_eq_error h
  obtain ⟨vs, rfl, _⟩ := Value.checkArray_list_eq_ok.mp harray
  obtain h | ⟨_, _, h⟩ := bind_eq_error.mp h
  · exact nomatch h
  obtain h | ⟨_, _, h⟩ := bind_eq_error.mp h
  · obtain ⟨w, _, hw⟩ := exists_of_mapM_eq_error h
    exact Value.category_of_checkText_eq_error hw
  · exact category_of_ofInputs_eq_error h

/-- **A transition is refused in words that name its states and the number of states.** -/
theorem Transition.isComplaint_of_ofMember_eq_error {n : Nat} {A : Alphabet} {t : Transition}
    (h : ofMember n A (.transition t) = .error e) : e.IsComplaint (t.IsLong ∨ isLongInteger n) := by
  change t.fit n A = _ at h
  unfold fit at h
  split at h
  · split at h
    · split at h
      · exact nomatch h
      · refine Except.error.inj h ▸ Error.isComplaint_ofMalformed fun _ ho => ?_
        rw [Malformed.obstacles] at ho
        exact (eq_long_of_mem ho).imp_left .inl
    · exact Except.error.inj h ▸ Value.isComplaint_noSuchState.mono (Or.imp_left .inr)
  · exact Except.error.inj h ▸ Value.isComplaint_noSuchState.mono (Or.imp_left .inl)

theorem Alphabet.category_of_ofSymbols_eq_error {as : List Symbol}
    (h : ofSymbols as = .error e) : e.category = .configuration := by
  unfold ofSymbols at h
  split at h
  · exact Except.error.inj h ▸ rfl
  · split at h
    · exact Except.error.inj h ▸ rfl
    · split at h
      · cases h
      · exact Except.error.inj h ▸ rfl

theorem Alphabet.category_of_ofValue_eq_error {as : List Text}
    (h : ofValue (.list (as.map .text)) = .error e) : e.category = .configuration := by
  obtain h | ⟨_, hmem, h⟩ := bind_eq_error.mp h
  · exact nomatch h
  obtain rfl := Except.ok.inj hmem
  obtain h | ⟨_, _, h⟩ := bind_eq_error.mp h
  · obtain ⟨v, _, hv⟩ := exists_of_mapM_eq_error h
    obtain hv | ⟨_, _, hv⟩ := bind_eq_error.mp hv
    · exact Value.category_of_checkText_eq_error hv
    · split at hv
      · obtain rfl := Except.error.inj hv
        rw [Error.ofMalformed, Malformed.obstacles, Value.obstaclesOfAll_texts]
        rfl
      · exact nomatch hv
  · exact category_of_ofSymbols_eq_error h

theorem Nfa.isComplaint_of_checkCount_eq_error {n : Int} (h : checkCount (.int n) = .error e) :
    e.IsComplaint (isLongInteger n) := by
  obtain h | ⟨_, hn, h⟩ := bind_eq_error.mp h
  · exact nomatch h
  · obtain rfl := Value.int.inj (Value.checkInt_eq_ok.mp hn)
    split at h
    · exact Except.error.inj h ▸ Error.isComplaint_ofMalformed fun _ => eq_long_of_mem_integer
    · exact nomatch h

/-- **An automaton is refused in words that name integers given for it**, whatever its accepting
states are given as. -/
theorem Nfa.isComplaint_of_ofValues_eq_error_of_members {n q : Int} {as : List Text}
    {ts : List Transition} {accepting : Value} {vs : List Value}
    (hvs : accepting.distinctMembers = .ok vs)
    (h : ofValues (.int n) (.list (as.map .text)) (.list (ts.map .transition)) (.int q) accepting =
      .error e) :
    e.IsComplaint (isLongInteger n ∨ isLongInteger q ∨ (∃ v ∈ vs, v.IsLong) ∨
      ∃ t ∈ ts, t.IsLong) := by
  obtain h | ⟨A, _, h⟩ := bind_eq_error.mp h
  · exact .inl (Alphabet.category_of_ofValue_eq_error h)
  obtain h | ⟨_, hts, h⟩ := bind_eq_error.mp h
  · exact nomatch h
  obtain rfl := Except.ok.inj hts
  rw [hvs] at h
  obtain h | ⟨_, hF, h⟩ := bind_eq_error.mp h
  · exact nomatch h
  obtain rfl := Except.ok.inj hF
  obtain h | ⟨k, hk, h⟩ := bind_eq_error.mp h
  · exact (isComplaint_of_checkCount_eq_error h).mono .inl
  have hcount : isLongInteger k → isLongInteger n :=
    fun h => Value.int.inj (checkCount_eq_ok.mp hk).1 ▸ h
  obtain h | ⟨_, _, h⟩ := bind_eq_error.mp h
  · exact (Value.isComplaint_of_checkState_eq_error h).mono fun h =>
      h.elim (fun h => .inr (.inl (Value.isLong_int.mp h))) fun h => .inl (hcount h)
  obtain h | ⟨_, _, h⟩ := bind_eq_error.mp h
  · obtain ⟨v, hv, h⟩ := exists_of_mapM_eq_error h
    exact (Value.isComplaint_of_checkState_eq_error h).mono fun h =>
      h.elim (fun h => .inr (.inr (.inl ⟨v, hv, h⟩))) fun h => .inl (hcount h)
  obtain h | ⟨_, _, h⟩ := bind_eq_error.mp h
  · obtain ⟨v, hv, h⟩ := exists_of_mapM_eq_error h
    obtain ⟨t, ht, rfl⟩ := List.mem_map.mp hv
    exact (Transition.isComplaint_of_ofMember_eq_error h).mono fun h =>
      h.elim (fun h => .inr (.inr (.inr ⟨t, ht, h⟩))) fun h => .inl (hcount h)
  · exact nomatch h

theorem Nfa.isComplaint_of_ofValues_eq_error {n q : Int} {as : List Text} {ts : List Transition}
    {l : List Int} (h : ofValues (.int n) (.list (as.map .text)) (.list (ts.map .transition))
      (.int q) (.list (l.map .int)) = .error e) :
    e.IsComplaint (isLongInteger n ∨ isLongInteger q ∨ (∃ s ∈ l, isLongInteger s) ∨
      ∃ t ∈ ts, t.IsLong) := by
  obtain ⟨m, hm, hmem⟩ := Value.distinctMembers_int l
  refine (isComplaint_of_ofValues_eq_error_of_members hm h).mono fun h => ?_
  refine h.imp_right fun h => h.imp_right fun h => h.imp_left fun ⟨v, hv, hlong⟩ => ?_
  obtain ⟨s, hs, rfl⟩ := List.mem_map.mp hv
  exact ⟨s, (hmem s).mp hs, Value.isLong_int.mp hlong⟩

end FiniteAutomata
