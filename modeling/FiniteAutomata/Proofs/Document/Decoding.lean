import FiniteAutomata.Proofs.Document.Form

/-!
# Proofs/Document/Decoding — decoding yields what the forms of the objects say

An object is read exactly if it has a sound form, and what is read is what the form says
(`ofObject_eq_transition_iff`, `ofObject_eq_nfa_iff`, `exists_ofObject_eq_ok_iff`). So a document
decodes to something exactly if every object in it can be read (`exists_decode_eq_ok_iff`), and to
an automaton exactly if it is itself an object whose form describes that automaton
(`decode_eq_nfa_iff`).
-/

namespace FiniteAutomata

open Document

/-! ## Reading one object -/

theorem Value.ofObject_eq_transition {fs : List (Text × Value)} {t : Transition} :
    ofObject fs = .ok (.transition t) ↔
      fieldD fs "type" .null = .text "Transition" ∧ Transition.ofFields fs = .ok t := by
  unfold ofObject
  dsimp only
  split
  · rename_i htag
    rw [and_iff_right (same_text.mp htag), bind_eq_ok]
    exact ⟨fun ⟨u, hu, h⟩ => Value.transition.inj (Except.ok.inj h) ▸ hu, fun h => ⟨t, h, rfl⟩⟩
  · rename_i htag
    refine iff_of_false ?_ fun h => htag (same_text.mpr h.1)
    split
    · rw [bind_eq_ok]
      exact fun ⟨_, _, h⟩ => nomatch h
    · exact nofun

theorem Value.ofObject_eq_nfa {fs : List (Text × Value)} {N : Nfa} :
    ofObject fs = .ok (.nfa N) ↔
      fieldD fs "type" .null = .text "NFA" ∧ Nfa.ofFields fs = .ok N := by
  unfold ofObject
  dsimp only
  split
  · rename_i htag
    rw [same_text] at htag
    refine iff_of_false ?_ fun h => absurd (htag.symm.trans h.1) (by simp)
    rw [bind_eq_ok]
    exact fun ⟨_, _, h⟩ => nomatch h
  · split
    · rename_i htag
      rw [and_iff_right (same_text.mp htag), bind_eq_ok]
      exact ⟨fun ⟨M, hM, h⟩ => Value.nfa.inj (Except.ok.inj h) ▸ hM, fun h => ⟨N, h, rfl⟩⟩
    · rename_i htag
      exact iff_of_false nofun fun h => htag (same_text.mpr h.1)

/-- **What fields an automaton is read from.** -/
theorem Nfa.ofFields_eq_ok {fs : List (Text × Value)} {N : Nfa} :
    ofFields fs = .ok N ↔
      Value.fieldD fs "state_count" .null = .int N.stateCount ∧
      Value.fieldD fs "start_state" .null = .int N.start ∧
      (∃ l : List Int, Value.fieldD fs "accept_states" (.list []) = .list (l.map .int) ∧
        ∀ s, s ∈ N.accepting ↔ s ∈ l) ∧
      Value.fieldD fs "inputs" .null = .list (N.alphabet.symbols.map .text) ∧
      N.alphabet.symbols ≠ [] ∧
      Value.fieldD fs "transitions" (.list []) = .list (N.transitions.map .transition) := by
  unfold ofFields
  simp only [check_bind_eq_ok, Value.checkKind_eq_ok, Value.checkArray_list_eq_ok,
    Nfa.ofValues_eq_ok]
  constructor
  · rintro ⟨_, _, ⟨ws, hws, -, hint⟩, ⟨as, has, hne, -⟩, ⟨us, hus, -⟩, hcount, hstart, hA, hts, m,
      hm, hmem⟩
    obtain ⟨l, rfl⟩ := forall_mem_eq_map.mp fun w hw => Value.isOfKind_int.mp (hint w hw)
    rw [has] at hA
    rw [hus] at hts
    rw [hws] at hm
    obtain rfl := Except.ok.inj hA
    obtain rfl := Except.ok.inj hts
    obtain ⟨k, hk, hkmem⟩ := Value.distinctMembers_int l
    have hkm : k = m := List.map_injective_iff.mpr (fun _ _ => Value.int.inj)
      (Except.ok.inj (hk.symm.trans hm))
    refine ⟨hcount, hstart, ⟨l, hws, fun s => ?_⟩, has, by simpa using hne, hus⟩
    rw [hmem, ← hkm, hkmem]
  · rintro ⟨hcount, hstart, ⟨l, hF, hmem⟩, hA, hne, hts⟩
    obtain ⟨k, hk, hkmem⟩ := Value.distinctMembers_int l
    rw [hcount, hstart, hF, hA, hts]
    refine ⟨rfl, rfl, ⟨_, rfl, nofun, ?_⟩, ⟨_, rfl, by simpa using hne, ?_⟩, ⟨_, rfl, nofun, ?_⟩,
      rfl, rfl, rfl, rfl, k, hk, fun s => (hmem s).trans (hkmem s).symm⟩
    · exact fun w hw => Value.isOfKind_int.mpr (forall_mem_eq_map.mpr ⟨l, rfl⟩ w hw)
    · exact fun w hw => Value.isOfKind_text.mpr (forall_mem_eq_map.mpr ⟨_, rfl⟩ w hw)
    · exact fun w hw => Value.isOfKind_transition.mpr (forall_mem_eq_map.mpr ⟨_, rfl⟩ w hw)

/-! ## Decoding one object -/

section

variable {es : List (Text × Document)} {fs : List (Text × Value)}

/-- The field that is read from an entry is given by what the entry decodes to. -/
theorem fieldD_eq_iff (h : decodeEntries es = .ok fs) {key : Text} {d : Document}
    {fallback v : Value} (hd : d.decode = .ok fallback) :
    Value.fieldD (Value.mergeFields fs) key fallback = v ↔
      ((member? es key).getD d).decode = .ok v := by
  rw [decode_memberD h key hd]
  exact ⟨congrArg _, Except.ok.inj⟩

/-- An entry that cannot be left out. -/
theorem memberD_null_eq_iff {key : Text} {d : Document} (hd : d ≠ .leaf .null) :
    (member? es key).getD (.leaf .null) = d ↔ member? es key = some d := by
  rw [Option.getD_eq_iff]
  exact or_iff_left fun h => hd h.2.symm

theorem fieldD_null_eq_int (h : decodeEntries es = .ok fs) {key : Text} {n : Int} :
    Value.fieldD (Value.mergeFields fs) key .null = .int n ↔
      member? es key = some (.leaf (.int n)) := by
  rw [fieldD_eq_iff (d := .leaf .null) h rfl, decode_eq_int, memberD_null_eq_iff (by simp)]

theorem fieldD_null_eq_text (h : decodeEntries es = .ok fs) {key s : Text} :
    Value.fieldD (Value.mergeFields fs) key .null = .text s ↔
      member? es key = some (.leaf (.text s)) := by
  rw [fieldD_eq_iff (d := .leaf .null) h rfl, decode_eq_text, memberD_null_eq_iff (by simp)]

theorem fieldD_nil_eq_list (h : decodeEntries es = .ok fs) (hp : (object es).Plain) {α : Type}
    {f : α → Value} (hf : ∀ (d : Document) a, d.decode = .ok (f a) ↔ d = .leaf (f a))
    {key : Text} {l : List α} :
    Value.fieldD (Value.mergeFields fs) key (.list []) = .list (l.map f) ↔
      (member? es key).getD (.array []) = scalars f l := by
  rw [fieldD_eq_iff (d := .array []) h rfl, (hp.memberD _ plain_nil).decode_eq_scalars hf]

/-- **A transition is what the form of its object says.** -/
theorem ofObject_eq_transition_iff (h : decodeEntries es = .ok fs) (hp : (object es).Plain)
    {t : Transition} : Value.ofObject (Value.mergeFields fs) = .ok (.transition t) ↔
      ∃ m : TransitionForm, m.IsIn es ∧ m.Says t := by
  rw [Value.ofObject_eq_transition, Transition.ofFields, Transition.ofValues_eq_ok,
    fieldD_null_eq_text h, fieldD_null_eq_int h, fieldD_null_eq_int h]
  simp only [fieldD_nil_eq_list h hp fun _ _ => decode_eq_text]
  constructor
  · rintro ⟨htype, hsource, htarget, as, has, hinputs⟩
    exact ⟨⟨t.source, t.target, as⟩, ⟨htype, hsource, htarget, has⟩, rfl, rfl, hinputs⟩
  · rintro ⟨⟨_, _, as⟩, ⟨htype, hsource, htarget, has⟩, rfl, rfl, hinputs⟩
    exact ⟨htype, hsource, htarget, as, has, hinputs⟩

theorem decode_eq_transition (hp : (object es).Plain) {t : Transition} :
    (object es).decode = .ok (.transition t) ↔
      (∃ fs, decodeEntries es = .ok fs) ∧ ∃ m : TransitionForm, m.IsIn es ∧ m.Says t := by
  rw [decode_object_eq_ok]
  constructor
  · rintro ⟨fs, h, hv⟩
    exact ⟨⟨fs, h⟩, (ofObject_eq_transition_iff h hp).mp hv⟩
  · rintro ⟨⟨fs, h⟩, hm⟩
    exact ⟨fs, h, (ofObject_eq_transition_iff h hp).mpr hm⟩

/-- In a plain document only an object decodes to a transition. -/
theorem Document.Plain.exists_object {d : Document} (hd : d.Plain) {t : Transition}
    (h : d.decode = .ok (.transition t)) : ∃ es, d = .object es := by
  cases d with
  | leaf v =>
    obtain rfl := Except.ok.inj h
    exact absurd (hd.self _ rfl) Bool.false_ne_true
  | faulty fault => exact nomatch h
  | array ds =>
    obtain ⟨_, hv, _⟩ := decode_array_eq_ok.mp h
    exact nomatch hv
  | object es => exact ⟨es, rfl⟩

/-- **The transitions of an automaton are what the forms of their objects say.** -/
theorem fieldD_nil_eq_transitions (h : decodeEntries es = .ok fs) (hp : (object es).Plain)
    {ts : List Transition} :
    Value.fieldD (Value.mergeFields fs) "transitions" (.list []) = .list (ts.map .transition) ↔
      ∃ objects, (member? es "transitions").getD (.array []) = .array (objects.map .object) ∧
        List.Forall₂ (fun es t => ∃ m : TransitionForm, m.IsIn es ∧ m.Says t) objects ts := by
  have hplain := hp.memberD "transitions" plain_nil
  have hdecode := decode_memberD h "transitions" (d := .array []) rfl
  rw [fieldD_eq_iff (d := .array []) h rfl, hplain.decode_eq_list]
  simp only [List.forall₂_map_right_iff]
  constructor
  · rintro ⟨ds, hds, hrel⟩
    rw [hds, plain_array] at hplain
    obtain ⟨objects, rfl⟩ := forall_mem_eq_map.mp fun d hd => by
      obtain ⟨t, -, hdt⟩ := exists_of_forall₂_of_mem hrel.flip hd
      exact (hplain d hd).exists_object hdt
    refine ⟨objects, hds, ?_⟩
    rw [List.forall₂_map_left_iff] at hrel
    rw [List.forall_mem_map] at hplain
    exact ((List.forall₂_and_left _ _).mpr ⟨hplain, hrel⟩).imp fun _ _ ⟨hp, hd⟩ =>
      ((decode_eq_transition hp).mp hd).2
  · rintro ⟨objects, hobjects, hrel⟩
    rw [hobjects, plain_array, List.forall_mem_map] at hplain
    rw [hobjects, decode_array_eq_ok] at hdecode
    obtain ⟨vs, -, hvs⟩ := hdecode
    have hread : ∀ es ∈ objects, ∃ fs, decodeEntries es = .ok fs := fun es hes => by
      obtain ⟨v, hv⟩ := exists_forall₂_iff.mp ⟨vs, hvs⟩ _ (List.mem_map_of_mem hes)
      obtain ⟨fs, hfs, -⟩ := decode_object_eq_ok.mp hv
      exact ⟨fs, hfs⟩
    refine ⟨_, hobjects, List.forall₂_map_left_iff.mpr ?_⟩
    have hall : ∀ es ∈ objects, (object es).Plain ∧ ∃ fs, decodeEntries es = .ok fs :=
      fun es hes => ⟨hplain es hes, hread es hes⟩
    exact ((List.forall₂_and_left _ _).mpr ⟨hall, hrel⟩).imp fun _ _ ⟨⟨hp, hfs⟩, hm⟩ =>
      (decode_eq_transition hp).mpr ⟨hfs, hm⟩

/-- **An automaton is what the form of its object says.** -/
theorem ofObject_eq_nfa_iff (h : decodeEntries es = .ok fs) (hp : (object es).Plain)
    {N : Nfa} : Value.ofObject (Value.mergeFields fs) = .ok (.nfa N) ↔
      ∃ F : NfaForm, F.IsIn es ∧ F.Says N := by
  have hinputs : Value.fieldD (Value.mergeFields fs) "inputs" .null =
      .list (N.alphabet.symbols.map .text) ↔
        member? es "inputs" = some (scalars .text N.alphabet.symbols) := by
    rw [fieldD_eq_iff (d := .leaf .null) h rfl,
      (hp.memberD _ (plain_leaf rfl)).decode_eq_scalars fun _ _ => decode_eq_text]
    exact memberD_null_eq_iff (by simp [scalars])
  rw [Value.ofObject_eq_nfa, Nfa.ofFields_eq_ok, fieldD_null_eq_text h, fieldD_null_eq_int h,
    fieldD_null_eq_int h, fieldD_nil_eq_transitions h hp, hinputs]
  simp only [fieldD_nil_eq_list h hp fun _ _ => decode_eq_int, forall₂_exists_and_iff]
  constructor
  · rintro ⟨htype, hcount, hstart, ⟨l, hl, hmem⟩, hinputs, hne, objects, hobjects, ms, hin, hsays⟩
    exact ⟨⟨N.stateCount, N.start, l, N.alphabet.symbols, ms⟩,
      ⟨htype, hcount, hstart, hl, hinputs, objects, hobjects, hin⟩, rfl, rfl, hmem, rfl, hne, hsays⟩
  · rintro ⟨⟨_, _, l, _, ms⟩, ⟨htype, hcount, hstart, hl, hinputs, objects, hobjects, hin⟩,
      rfl, rfl, hmem, rfl, hne, hsays⟩
    exact ⟨htype, hcount, hstart, ⟨l, hl, hmem⟩, hinputs, hne, objects, hobjects, ms, hin, hsays⟩

/-- **An object is read exactly if it has a sound form.** -/
theorem exists_ofObject_eq_ok_iff (h : decodeEntries es = .ok fs) (hp : (object es).Plain) :
    (∃ v, Value.ofObject (Value.mergeFields fs) = .ok v) ↔ Readable es := by
  constructor
  · rintro ⟨v, hv⟩
    obtain ⟨t, rfl⟩ | ⟨N, rfl⟩ := ofObject_eq_ok hv
    · obtain ⟨m, hin, hm⟩ := (ofObject_eq_transition_iff h hp).mp hv
      exact .inl ⟨m, hin, TransitionForm.sound_iff.mpr ⟨t, hm⟩⟩
    · obtain ⟨F, hin, hF⟩ := (ofObject_eq_nfa_iff h hp).mp hv
      exact .inr ⟨F, hin, NfaForm.sound_iff.mpr ⟨N, hF⟩⟩
  · rintro (⟨m, hin, hm⟩ | ⟨F, hin, hF⟩)
    · obtain ⟨t, ht⟩ := TransitionForm.sound_iff.mp hm
      exact ⟨_, (ofObject_eq_transition_iff h hp).mpr ⟨m, hin, ht⟩⟩
    · obtain ⟨N, hN⟩ := NfaForm.sound_iff.mp hF
      exact ⟨_, (ofObject_eq_nfa_iff h hp).mpr ⟨F, hin, hN⟩⟩

end

/-! ## Decoding a document -/

/-- Every object in the document can be read. -/
def Document.AllReadable (d : Document) : Prop :=
  d.Throughout fun p => ∀ es, p = .object es → Readable es

theorem allReadable_leaf {v : Value} : (leaf v).AllReadable := throughout_leaf.mpr nofun

theorem allReadable_array {ds : List Document} :
    (array ds).AllReadable ↔ ∀ d ∈ ds, d.AllReadable :=
  throughout_array.trans (and_iff_right nofun)

theorem allReadable_object {es : List (Text × Document)} :
    (object es).AllReadable ↔ Readable es ∧ ∀ e ∈ es, e.2.AllReadable := by
  refine throughout_object.trans (and_congr_left fun _ => ?_)
  exact ⟨fun h => h es rfl, fun h es' hes => object.inj hes ▸ h⟩

theorem allReadable_scalars {α : Type} {f : α → Value} {l : List α} :
    (scalars f l).AllReadable :=
  allReadable_array.mpr (List.forall_mem_map.mpr fun _ _ => allReadable_leaf)

/-- **A document decodes to something exactly if every object in it can be read.** -/
theorem exists_decode_eq_ok_iff {d : Document} (hp : d.Plain) (hn : d.Numeric) :
    (∃ v, d.decode = .ok v) ↔ d.AllReadable := by
  induction d with
  | leaf v => exact iff_of_true ⟨v, rfl⟩ allReadable_leaf
  | faulty fault => exact absurd rfl (hn.self fault)
  | array ds ih =>
    have hmem : (∃ v, (array ds).decode = .ok v) ↔ ∀ d ∈ ds, ∃ v, d.decode = .ok v := by
      simp only [decode_array_eq_ok, ↓existsAndEq, true_and, exists_forall₂_iff]
    rw [hmem, allReadable_array]
    exact forall₂_congr fun d hd =>
      ih d hd (plain_array.mp hp d hd) ((throughout_array.mp hn).2 d hd)
  | object es ih =>
    have hentries : (∃ fs, decodeEntries es = .ok fs) ↔ ∀ e ∈ es, e.2.AllReadable :=
      exists_decodeEntries_eq_ok.trans <| forall₂_congr fun e he =>
        ih e he (plain_object.mp hp e he) ((throughout_object.mp hn).2 e he)
    rw [allReadable_object, ← hentries]
    constructor
    · rintro ⟨v, hv⟩
      obtain ⟨fs, hfs, hv⟩ := decode_object_eq_ok.mp hv
      exact ⟨(exists_ofObject_eq_ok_iff hfs hp).mp ⟨v, hv⟩, fs, hfs⟩
    · rintro ⟨hes, fs, hfs⟩
      obtain ⟨v, hv⟩ := (exists_ofObject_eq_ok_iff hfs hp).mpr hes
      exact ⟨v, decode_object_eq_ok.mpr ⟨fs, hfs, hv⟩⟩

/-- **A document decodes to an automaton exactly if it is an object whose form describes it**, and
all objects in it can be read. -/
theorem decode_eq_nfa_iff {d : Document} (hp : d.Plain) (hn : d.Numeric) {N : Nfa} :
    d.decode = .ok (.nfa N) ↔
      d.AllReadable ∧ ∃ es, d = .object es ∧ ∃ F : NfaForm, F.IsIn es ∧ F.Says N := by
  constructor
  · intro h
    refine ⟨(exists_decode_eq_ok_iff hp hn).mp ⟨_, h⟩, ?_⟩
    cases d with
    | leaf v =>
      obtain rfl := Except.ok.inj h
      exact absurd (hp.self _ rfl) Bool.false_ne_true
    | faulty fault => exact nomatch h
    | array ds =>
      obtain ⟨_, hv, _⟩ := decode_array_eq_ok.mp h
      exact nomatch hv
    | object es =>
      obtain ⟨fs, hfs, hv⟩ := decode_object_eq_ok.mp h
      exact ⟨es, rfl, (ofObject_eq_nfa_iff hfs hp).mp hv⟩
  · rintro ⟨hall, es, rfl, hF⟩
    obtain ⟨v, hv⟩ := (exists_decode_eq_ok_iff hp hn).mpr hall
    obtain ⟨fs, hfs, -⟩ := decode_object_eq_ok.mp hv
    exact decode_object_eq_ok.mpr ⟨fs, hfs, (ofObject_eq_nfa_iff hfs hp).mpr hF⟩

end FiniteAutomata
