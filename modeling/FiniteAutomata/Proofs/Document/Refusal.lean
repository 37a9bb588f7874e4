import FiniteAutomata.Proofs.Document.Decoding
import FiniteAutomata.Proofs.Nfa.Refusal

/-!
# Proofs/Document/Refusal — why a document is refused

Every complaint about a part of a document is a fault of what was given (`Error.IsFault`), whether
or not it can be put into words (`Nfa.isFault_of_ofFields_eq_error`). One refusal is of another
kind: the type of an object is put into words when it is not known, and if it holds an automaton
with very many states, the machine at hand may have no room for them (`asksFor_of_mem_obstacles`,
`raised_unknownType`). There is no other reason for which decoding fails (`decode_eq_error`).
-/

namespace FiniteAutomata

open Document

/-! ## Faults -/

namespace Error

/-- The error names a fault of what was given. -/
def IsFault (e : Error) : Prop := e.isFaultOfValue = true

variable {e : Error}

theorem isFault_numeral (fault : NumeralFault) : (numeral fault).IsFault := rfl

theorem isFault_of_category_eq (h : e.category = .configuration) : e.IsFault := by
  rw [IsFault, isFaultOfValue, h]
  rfl

/-- A complaint is a fault, also one that cannot be put into words. -/
theorem IsComplaint.isFault {long : Prop} (h : e.IsComplaint long) : e.IsFault := by
  obtain h | ⟨_, rfl⟩ := h
  · exact isFault_of_category_eq h
  · rfl

end Error

/-- **The fields of an automaton are refused for a fault.** -/
theorem Nfa.isFault_of_ofFields_eq_error {fs : List (Text × Value)} {e : Error}
    (h : ofFields fs = .error e) : e.IsFault := by
  obtain h | ⟨_, hcount, h⟩ := bind_eq_error.mp h
  · exact Error.isFault_of_category_eq (Value.category_of_checkKind_eq_error h)
  obtain h | ⟨_, hstart, h⟩ := bind_eq_error.mp h
  · exact Error.isFault_of_category_eq (Value.category_of_checkKind_eq_error h)
  obtain h | ⟨_, hF, h⟩ := bind_eq_error.mp h
  · exact Error.isFault_of_category_eq (Value.category_of_checkArray_eq_error h)
  obtain h | ⟨_, hA, h⟩ := bind_eq_error.mp h
  · exact Error.isFault_of_category_eq (Value.category_of_checkArray_eq_error h)
  obtain h | ⟨_, hts, h⟩ := bind_eq_error.mp h
  · exact Error.isFault_of_category_eq (Value.category_of_checkArray_eq_error h)
  -- The kinds of all fields are known now, and automata are refused for faults of such.
  obtain ⟨n, hn⟩ := Value.isOfKind_int.mp (Value.checkKind_eq_ok.mp hcount)
  obtain ⟨q, hq⟩ := Value.isOfKind_int.mp (Value.checkKind_eq_ok.mp hstart)
  obtain ⟨ws, hws, -, hint⟩ := Value.checkArray_list_eq_ok.mp hF
  obtain ⟨vs, hvs, -, htext⟩ := Value.checkArray_list_eq_ok.mp hA
  obtain ⟨us, hus, -, htransition⟩ := Value.checkArray_list_eq_ok.mp hts
  obtain ⟨l, rfl⟩ := forall_mem_eq_map.mp fun w hw => Value.isOfKind_int.mp (hint w hw)
  obtain ⟨as, rfl⟩ := forall_mem_eq_map.mp fun w hw => Value.isOfKind_text.mp (htext w hw)
  obtain ⟨ts, rfl⟩ :=
    forall_mem_eq_map.mp fun w hw => Value.isOfKind_transition.mp (htransition w hw)
  rw [hn, hq, hws, hvs, hus] at h
  exact (Nfa.isComplaint_of_ofValues_eq_error h).isFault

/-! ## Too many states -/

/-- The reason is that a list of all states would be too long. -/
def Unwritable.IsCrowd (reason : Unwritable) : Prop := reason = .noRoom ∨ reason = .tooManyStates

section

variable {m : Machine} {reason : Unwritable}

/-- **A list of states is too long only where there is no room for it.** -/
theorem Machine.listStates_eq_error {n : Nat} (h : m.listStates n = .error reason) :
    m.room < n ∧ reason.IsCrowd := by
  unfold listStates at h
  split at h
  · rename_i hlong
    exact ⟨Nat.lt_of_le_of_lt m.room_le hlong, .inr (Except.error.inj h).symm⟩
  · split at h
    · rename_i hroom
      exact ⟨hroom, .inl (Except.error.inj h).symm⟩
    · exact nomatch h

/-- What a machine does not overcome is a reason that holds on all machines, or a long list. -/
theorem Machine.overcome_eq_error {os : List Obstacle} (h : m.overcome os = .error reason) :
    .reason reason ∈ os ∨ reason.IsCrowd ∧ ∃ n, .states n ∈ os ∧ m.room < n := by
  induction os with
  | nil => exact nomatch h
  | cons o os ih =>
    cases o with
    | reason r => exact .inl (Except.error.inj h ▸ List.mem_cons_self)
    | states n =>
      rw [overcome] at h
      obtain h | ⟨_, -, h⟩ := bind_eq_error.mp h
      · obtain ⟨hroom, hcrowd⟩ := listStates_eq_error h
        exact .inr ⟨hcrowd, n, List.mem_cons_self, hroom⟩
      · obtain hmem | ⟨hcrowd, k, hk, hroom⟩ := ih h
        · exact .inl (List.mem_cons_of_mem _ hmem)
        · exact .inr ⟨hcrowd, k, List.mem_cons_of_mem _ hk, hroom⟩

/-- **What comes up in place of an error whose wording has obstacles.** -/
theorem Error.raised_after (os : List Obstacle) (e : Error) :
    (after os e).raised m = match m.overcome os with
      | .ok () => e.raised m
      | .error r => .unwritable r := by
  induction os with
  | nil => rfl
  | cons o os ih =>
    cases o with
    | reason r => rfl
    | states n =>
      rw [after, raised, Machine.overcome]
      cases m.listStates n with
      | error r => rfl
      | ok states => exact ih

/-- Faults are the same on every machine. -/
theorem Error.IsFault.raised {e : Error} (h : e.IsFault) : e.raised m = e := by
  cases e with
  | listing n cause => exact absurd (h : false = true) nofun
  | _ => rfl

end

namespace Document

/-- Some object in the document asks for this many states. -/
def AsksFor (d : Document) (n : Int) : Prop :=
  ∃ es, .object es ∈ d.parts ∧ member? es "state_count" = some (.leaf (.int n))

/-- Some object in the document asks for more states than there is room for in a list. -/
def HasCrowd (m : Machine) (d : Document) : Prop := ∃ n : Int, m.room < n ∧ d.AsksFor n

/-- **The type of some object holds an object with too many states.** -/
def HasCrowdedType (m : Machine) (d : Document) : Prop :=
  ∃ es, .object es ∈ d.parts ∧ ∃ tag, member? es "type" = some tag ∧ tag.HasCrowd m

end Document

theorem Value.exists_of_mem_obstaclesOfAll {vs : List Value} {o : Obstacle}
    (h : o ∈ obstaclesOfAll vs) : ∃ v ∈ vs, o ∈ v.obstacles := by
  induction vs with
  | nil => exact absurd h List.not_mem_nil
  | cons v vs ih =>
    obtain h | h := List.mem_append.mp h
    · exact ⟨v, List.mem_cons_self, h⟩
    · obtain ⟨w, hw, h⟩ := ih h
      exact ⟨w, List.mem_cons_of_mem _ hw, h⟩

/-- **What keeps a decoded document from being written is no crowd, or the states it asks for.** -/
theorem asksFor_of_mem_obstacles {d : Document} (hp : d.Plain) {v : Value} (h : d.decode = .ok v)
    {o : Obstacle} (ho : o ∈ v.obstacles) :
    (∃ r : Unwritable, ¬ r.IsCrowd ∧ o = .reason r) ∨ ∃ n : Nat, d.AsksFor n ∧ o = .states n := by
  have hlong : ¬ Unwritable.longInteger.IsCrowd := by simp [Unwritable.IsCrowd]
  have hheading : ¬ Unwritable.repeatedHeading.IsCrowd := by simp [Unwritable.IsCrowd]
  induction d generalizing v with
  | leaf w =>
    obtain rfl := Except.ok.inj h
    have hscalar := hp.self _ rfl
    cases w with
    | int n =>
      rw [Value.obstacles] at ho
      exact .inl ⟨_, hlong, (eq_long_of_mem_integer ho).2⟩
    | null | bool _ | float _ | text _ => exact absurd ho List.not_mem_nil
    | list _ | tuple _ | object _ | transition _ | nfa _ => cases hscalar
  | faulty fault => cases h
  | array ds ih =>
    obtain ⟨vs, rfl, hvs⟩ := decode_array_eq_ok.mp h
    obtain ⟨w, hw, ho⟩ := Value.exists_of_mem_obstaclesOfAll ho
    obtain ⟨d, hd, hdw⟩ := exists_of_forall₂_of_mem hvs hw
    refine (ih d hd (plain_array.mp hp d hd) hdw ho).imp_right ?_
    rintro ⟨n, ⟨es, hes, hn⟩, ho⟩
    exact ⟨n, ⟨es, mem_parts_array.mpr (.inr ⟨d, hd, hes⟩), hn⟩, ho⟩
  | object es _ =>
    obtain ⟨fs, hfs, hv⟩ := decode_object_eq_ok.mp h
    obtain ⟨t, rfl⟩ | ⟨N, rfl⟩ := ofObject_eq_ok hv
    · rw [Value.obstacles] at ho
      exact .inl ⟨_, hlong, (Transition.eq_long_of_mem ho).2⟩
    · obtain ⟨F, hin, hF⟩ := (ofObject_eq_nfa_iff hfs hp).mp hv
      rw [Value.obstacles, Amended.obstacles] at ho
      split at ho
      · refine .inr ⟨N.stateCount, ⟨es, mem_parts_self _, ?_⟩, List.mem_singleton.mp ho⟩
        rw [← hF.count]
        exact hin.count
      · exact .inl ⟨_, hheading, List.mem_singleton.mp ho⟩

/-! ## Decoding -/

theorem exists_of_decodeItems_eq_error {ds : List Document} {e : Error}
    (h : decodeItems ds = .error e) : ∃ d ∈ ds, d.decode = .error e := by
  rw [decodeItems_eq_mapM] at h
  exact exists_of_mapM_eq_error h

theorem exists_of_decodeEntries_eq_error {es : List (Text × Document)} {e : Error}
    (h : decodeEntries es = .error e) : ∃ p ∈ es, p.2.decode = .error e := by
  rw [decodeEntries_eq_mapM] at h
  obtain ⟨p, hp, h⟩ := exists_of_mapM_eq_error h
  obtain h | ⟨_, _, h⟩ := bind_eq_error.mp h
  · exact ⟨p, hp, h⟩
  · exact nomatch h

/-- A field that asks for states is there, as what stands for a missing one asks for none. -/
theorem exists_member?_of_asksFor {es : List (Text × Document)} {name : Text} {n : Int}
    (h : ((member? es name).getD (.leaf .null)).AsksFor n) :
    ∃ d, member? es name = some d ∧ d.AsksFor n := by
  cases hentry : member? es name with
  | some d =>
    rw [hentry] at h
    exact ⟨d, rfl, h⟩
  | none =>
    rw [hentry] at h
    obtain ⟨es', hes', -⟩ := h
    exact absurd hes' (by simp [parts])

/-- **A type that is not known is put into words**, unless it holds too many states. -/
theorem raised_unknownType {m : Machine} {es : List (Text × Document)}
    {fs : List (Text × Value)} (hfs : decodeEntries es = .ok fs) (hp : (object es).Plain) :
    let e := Error.ofMalformed (.unknownType (Value.fieldD (Value.mergeFields fs) "type" .null))
    (e.raised m).IsFault ∨ (∃ reason, reason.IsCrowd ∧ e.raised m = .unwritable reason) ∧
      ∃ tag, member? es "type" = some tag ∧ tag.HasCrowd m := by
  have htag := decode_memberD hfs "type" (d := .leaf .null) rfl
  intro e
  have hraised : e.raised m = _ := Error.raised_after _ _
  rw [hraised]
  cases hos : m.overcome (Value.fieldD (Value.mergeFields fs) "type" .null).obstacles with
  | ok _ =>
    rw [Malformed.obstacles, hos]
    exact .inl rfl
  | error reason =>
    rw [Malformed.obstacles, hos]
    have hplain : ((member? es "type").getD (.leaf .null)).Plain :=
      hp.memberD "type" (plain_leaf rfl)
    obtain hmem | ⟨hcrowd, n, hmem, hroom⟩ := Machine.overcome_eq_error hos
    · obtain ⟨r, hr, heq⟩ | ⟨n, _, heq⟩ := asksFor_of_mem_obstacles hplain htag hmem
      · obtain rfl := Obstacle.reason.inj heq
        cases reason with
        | longInteger | repeatedHeading => exact .inl rfl
        | noRoom => exact absurd (.inl rfl) hr
        | tooManyStates => exact absurd (.inr rfl) hr
      · cases heq
    · obtain ⟨r, _, heq⟩ | ⟨k, hk, heq⟩ := asksFor_of_mem_obstacles hplain htag hmem
      · cases heq
      · obtain rfl := Obstacle.states.inj heq
        obtain ⟨tag, htype, hn⟩ := exists_member?_of_asksFor hk
        exact .inr ⟨⟨reason, hcrowd, rfl⟩, tag, htype, n, Int.ofNat_lt.mpr hroom, hn⟩

/-- **One object is refused for a fault of what was given**, or else for its type. -/
theorem ofObject_eq_error {m : Machine} {es : List (Text × Document)} {fs : List (Text × Value)}
    (hfs : decodeEntries es = .ok fs) (hp : (object es).Plain) {e : Error}
    (h : Value.ofObject (Value.mergeFields fs) = .error e) :
    (e.raised m).IsFault ∨ (∃ reason, reason.IsCrowd ∧ e.raised m = .unwritable reason) ∧
      ∃ tag, member? es "type" = some tag ∧ tag.HasCrowd m := by
  have hfault {e : Error} (he : e.IsFault) : (e.raised m).IsFault := he.raised.symm ▸ he
  unfold Value.ofObject at h
  dsimp only at h
  split at h
  · obtain h | ⟨_, _, h⟩ := bind_eq_error.mp h
    · have hcategory := Transition.category_of_ofValues_eq_error h
      exact .inl (hfault (Error.isFault_of_category_eq hcategory))
    · exact nomatch h
  · split at h
    · obtain h | ⟨_, _, h⟩ := bind_eq_error.mp h
      · exact .inl (hfault (Nfa.isFault_of_ofFields_eq_error h))
      · exact nomatch h
    · obtain rfl := Except.error.inj h
      exact raised_unknownType hfs hp

/-- **Decoding fails for a fault of what was given**, or else for the type of an object that holds
too many states to be put into words. -/
theorem decode_eq_error {m : Machine} {d : Document} (hp : d.Plain) {e : Error}
    (h : d.decode = .error e) :
    (e.raised m).IsFault ∨
      (∃ reason, reason.IsCrowd ∧ e.raised m = .unwritable reason) ∧ d.HasCrowdedType m := by
  induction d with
  | leaf v => exact nomatch h
  | faulty fault => exact Except.error.inj h ▸ .inl (Error.isFault_numeral fault)
  | array ds ih =>
    obtain h | ⟨_, _, h⟩ := bind_eq_error.mp h
    · obtain ⟨d, hd, h⟩ := exists_of_decodeItems_eq_error h
      refine (ih d hd (plain_array.mp hp d hd) h).imp_right fun ⟨he, es, hes, htag⟩ => ?_
      exact ⟨he, es, mem_parts_array.mpr (.inr ⟨d, hd, hes⟩), htag⟩
    · exact nomatch h
  | object es ih =>
    obtain h | ⟨fs, hfs, h⟩ := bind_eq_error.mp h
    · obtain ⟨p, hpes, h⟩ := exists_of_decodeEntries_eq_error h
      refine (ih p hpes (plain_object.mp hp p hpes) h).imp_right fun ⟨he, es', hes, htag⟩ => ?_
      exact ⟨he, es', mem_parts_object.mpr (.inr ⟨p, hpes, hes⟩), htag⟩
    · exact (ofObject_eq_error hfs hp h).imp_right fun ⟨he, htag⟩ =>
        ⟨he, es, mem_parts_self _, htag⟩

end FiniteAutomata
