import FiniteAutomata.Document
import FiniteAutomata.Proofs.Entry
import FiniteAutomata.Proofs.Outcome
import Mathlib.Data.List.Induction

/-!
# Proofs/Document/Parts — what is inside a document, and what decoding makes of it

A document holds others, to any depth (`Document.parts`); proofs about all of them are by one
induction (`Document.induction`). Decoding goes through the items and entries in turn
(`decodeItems_eq_ok`, `decodeEntries_eq_ok`), and a field of the object that is then read is what
the entry with that key decodes to (`decode_memberD`). Nothing but an object decodes to a part of an
automaton, so in a plain document the scalars and lists that decoding yields stood there as they are
(`decode_eq_int`, `Plain.decode_eq_scalars`).
-/

namespace FiniteAutomata

/-- The value is a scalar. -/
def Value.isScalar : Value → Bool
  | .null | .bool _ | .int _ | .float _ | .text _ => true
  | _ => false

namespace Document

/-! ## Parts -/

mutual

/-- **The documents inside a document**, itself among them. -/
def parts : Document → List Document
  | .leaf v => [.leaf v]
  | .faulty fault => [.faulty fault]
  | .array ds => .array ds :: partsOfItems ds
  | .object es => .object es :: partsOfEntries es

/-- The documents inside some items. -/
def partsOfItems : List Document → List Document
  | [] => []
  | d :: ds => d.parts ++ partsOfItems ds

/-- The documents inside some entries. -/
def partsOfEntries : List (Text × Document) → List Document
  | [] => []
  | (_, d) :: es => d.parts ++ partsOfEntries es

end

variable {d p : Document} {ds : List Document} {es : List (Text × Document)}

theorem mem_partsOfItems : p ∈ partsOfItems ds ↔ ∃ d ∈ ds, p ∈ d.parts := by
  induction ds with
  | nil => simp [partsOfItems]
  | cons d ds ih => simp [partsOfItems, ih]

theorem mem_partsOfEntries : p ∈ partsOfEntries es ↔ ∃ e ∈ es, p ∈ e.2.parts := by
  induction es with
  | nil => simp [partsOfEntries]
  | cons e es ih => simp [partsOfEntries, ih]

theorem mem_parts_array : p ∈ (array ds).parts ↔ p = .array ds ∨ ∃ d ∈ ds, p ∈ d.parts := by
  rw [parts, List.mem_cons, mem_partsOfItems]

theorem mem_parts_object : p ∈ (object es).parts ↔ p = .object es ∨ ∃ e ∈ es, p ∈ e.2.parts := by
  rw [parts, List.mem_cons, mem_partsOfEntries]

theorem mem_parts_self (d : Document) : d ∈ d.parts := by
  cases d <;> simp [parts]

/-- Everything in the document has the property. -/
def Throughout (P : Document → Prop) (d : Document) : Prop := ∀ p ∈ d.parts, P p

variable {P : Document → Prop}

theorem Throughout.self (h : d.Throughout P) : P d := h d (mem_parts_self d)

theorem throughout_leaf {v : Value} : (leaf v).Throughout P ↔ P (.leaf v) := by
  simp [Throughout, parts]

theorem throughout_faulty {fault : NumeralFault} :
    (faulty fault).Throughout P ↔ P (.faulty fault) := by
  simp [Throughout, parts]

theorem throughout_array :
    (array ds).Throughout P ↔ P (.array ds) ∧ ∀ d ∈ ds, d.Throughout P := by
  simp only [Throughout, mem_parts_array, or_imp, forall_and, forall_eq]
  exact and_congr_right fun _ =>
    ⟨fun h d hd p hp => h p ⟨d, hd, hp⟩, fun h p ⟨d, hd, hp⟩ => h d hd p hp⟩

theorem throughout_object :
    (object es).Throughout P ↔ P (.object es) ∧ ∀ e ∈ es, e.2.Throughout P := by
  simp only [Throughout, mem_parts_object, or_imp, forall_and, forall_eq]
  exact and_congr_right fun _ =>
    ⟨fun h e he p hp => h p ⟨e, he, hp⟩, fun h p ⟨e, he, hp⟩ => h e he p hp⟩

/-- **What holds of a document if it holds of all in it, holds of every document.** -/
@[induction_eliminator]
theorem induction {motive : Document → Prop} (leaf : ∀ v, motive (.leaf v))
    (faulty : ∀ fault, motive (.faulty fault))
    (array : ∀ ds, (∀ d ∈ ds, motive d) → motive (.array ds))
    (object : ∀ es, (∀ e ∈ es, motive e.2) → motive (.object es)) (d : Document) : motive d := by
  refine @Document.rec motive (fun ds => ∀ d ∈ ds, motive d) (fun es => ∀ e ∈ es, motive e.2)
    (fun e => motive e.2) leaf faulty array object ?_ ?_ ?_ ?_ ?_ d
  · exact fun _ h => absurd h List.not_mem_nil
  · exact fun _ _ hd hds => List.forall_mem_cons.mpr ⟨hd, hds⟩
  · exact fun _ h => absurd h List.not_mem_nil
  · exact fun _ _ he hes => List.forall_mem_cons.mpr ⟨he, hes⟩
  · exact fun _ _ hd => hd

/-! ## Decoding what is inside -/

/-- Items are decoded one by one. -/
theorem decodeItems_eq_mapM : decodeItems ds = ds.mapM decode := by
  induction ds with
  | nil => rfl
  | cons d ds ih =>
    rw [decodeItems, ih, List.mapM_cons]

theorem decodeItems_eq_ok {vs : List Value} :
    decodeItems ds = .ok vs ↔ List.Forall₂ (fun d v => d.decode = .ok v) ds vs := by
  rw [decodeItems_eq_mapM, mapM_eq_ok_iff]

/-- Entries are decoded one by one, and keep their keys. -/
theorem decodeEntries_eq_mapM :
    decodeEntries es = es.mapM fun e => e.2.decode >>= fun v => .ok (e.1, v) := by
  induction es with
  | nil => rfl
  | cons e es ih =>
    rw [decodeEntries, ih, List.mapM_cons]
    cases e.2.decode <;> rfl

theorem decodeEntries_eq_ok {fs : List (Text × Value)} :
    decodeEntries es = .ok fs ↔
      List.Forall₂ (fun e f => e.1 = f.1 ∧ e.2.decode = .ok f.2) es fs := by
  have hentry (e : Text × Document) (f : Text × Value) :
      (e.2.decode >>= fun v => .ok (e.1, v)) = .ok f ↔ e.1 = f.1 ∧ e.2.decode = .ok f.2 := by
    rw [bind_eq_ok]
    constructor
    · rintro ⟨v, hv, h⟩
      obtain rfl := Except.ok.inj h
      exact ⟨rfl, hv⟩
    · rintro ⟨hkey, hv⟩
      exact ⟨f.2, hv, by rw [hkey]⟩
  simp only [decodeEntries_eq_mapM, mapM_eq_ok_iff, hentry]

theorem exists_decodeEntries_eq_ok :
    (∃ fs, decodeEntries es = .ok fs) ↔ ∀ e ∈ es, ∃ v, e.2.decode = .ok v := by
  simp only [decodeEntries_eq_ok, exists_forall₂_iff, Prod.exists, ↓existsAndEq, true_and]

theorem decode_array_eq_ok {v : Value} : (array ds).decode = .ok v ↔
    ∃ vs, v = .list vs ∧ List.Forall₂ (fun d w => d.decode = .ok w) ds vs := by
  rw [decode, bind_eq_ok]
  constructor
  · rintro ⟨vs, hvs, h⟩
    exact ⟨vs, (Except.ok.inj h).symm, decodeItems_eq_ok.mp hvs⟩
  · rintro ⟨vs, rfl, hvs⟩
    exact ⟨vs, decodeItems_eq_ok.mpr hvs, rfl⟩

theorem decode_object_eq_ok {v : Value} : (object es).decode = .ok v ↔
    ∃ fs, decodeEntries es = .ok fs ∧ Value.ofObject (Value.mergeFields fs) = .ok v := by
  rw [decode, bind_eq_ok]

/-! ## Entries -/

/-- **The entry with a key**: of several, the last one counts. -/
def member? {α : Type} (entries : List (Text × α)) (key : Text) : Option α :=
  (entries.reverse.find? fun e => e.1 == key).map (·.2)

theorem member?_concat {α : Type} {entries : List (Text × α)} {e : Text × α} {key : Text} :
    member? (entries ++ [e]) key = if e.1 = key then some e.2 else member? entries key := by
  rw [member?, List.reverse_append, List.reverse_singleton, List.singleton_append, List.find?_cons]
  by_cases h : e.1 = key
  · rw [if_pos h, beq_iff_eq.mpr h]
    rfl
  · rw [if_neg h, beq_eq_false_iff_ne.mpr h, member?]

theorem member?_cons {α : Type} {entries : List (Text × α)} {e : Text × α} {key : Text} :
    member? (e :: entries) key =
      (member? entries key).or (if e.1 = key then some e.2 else none) := by
  rw [member?, List.reverse_cons, List.find?_append, Option.map_or, List.find?_singleton, member?]
  by_cases h : e.1 = key <;> simp [h]

/-- Entries that are related in turn have related entries with a key. -/
theorem rel_member? {α β : Type} {R : α → β → Prop} {es : List (Text × α)}
    {fs : List (Text × β)} (h : List.Forall₂ (fun e f => e.1 = f.1 ∧ R e.2 f.2) es fs)
    (key : Text) : Option.Rel R (member? es key) (member? fs key) := by
  induction h with
  | nil => exact .none
  | @cons e f es fs hef _ ih =>
    rw [member?_cons, member?_cons, hef.1]
    generalize member? es key = x at ih ⊢
    generalize member? fs key = y at ih ⊢
    cases ih with
    | some hxy => exact .some hxy
    | none =>
      split
      · exact .some hef.2
      · exact .none

theorem mem_of_member?_eq_some {α : Type} {entries : List (Text × α)} {key : Text} {x : α}
    (h : member? entries key = some x) : (key, x) ∈ entries := by
  obtain ⟨⟨name, x⟩, hfind, rfl⟩ := Option.map_eq_some_iff.mp h
  have hname := List.find?_some hfind
  obtain rfl : name = key := beq_iff_eq.mp hname
  exact List.mem_reverse.mp (List.mem_of_find?_eq_some hfind)

theorem fieldD_setField {fs : List (Text × Value)} {key name : Text} {v fallback : Value} :
    Value.fieldD (Value.setField name v fs) key fallback =
      if name = key then v else Value.fieldD fs key fallback := by
  induction fs with
  | nil => by_cases h : name = key <;> simp [Value.setField, Value.fieldD, h]
  | cons f fs ih =>
    by_cases hf : f.1 = name
    · obtain rfl := hf
      by_cases h : f.1 = key <;> simp [Value.setField, Value.fieldD, h]
    · rw [Value.setField, if_neg (by simpa using hf)]
      by_cases h : f.1 = key
      · have hne : name ≠ key := fun he => hf (h.trans he.symm)
        simp [Value.fieldD, h, hne]
      · simpa [Value.fieldD, h] using ih

theorem fieldD_mergeFields {fs : List (Text × Value)} {key : Text} {fallback : Value} :
    Value.fieldD (Value.mergeFields fs) key fallback = (member? fs key).getD fallback := by
  -- entries are merged from the first to the last, so the last one is looked at first
  induction fs using List.reverseRecOn with
  | nil => rfl
  | append_singleton fs f ih =>
    have hstep : Value.mergeFields (fs ++ [f]) =
        Value.setField f.1 f.2 (Value.mergeFields fs) := List.foldl_append
    rw [hstep, fieldD_setField, member?_concat]
    split
    · rfl
    · exact ih

/-- **A field is what the entry with its key decodes to**, or what stands in for it. -/
theorem decode_memberD {fs : List (Text × Value)} (h : decodeEntries es = .ok fs)
    (key : Text) {fallback : Value} {d : Document} (hd : d.decode = .ok fallback) :
    ((member? es key).getD d).decode = .ok (Value.fieldD (Value.mergeFields fs) key fallback) := by
  have hrel := rel_member? (R := fun (d : Document) v => d.decode = .ok v)
    (decodeEntries_eq_ok.mp h) key
  rw [fieldD_mergeFields]
  generalize member? es key = x at hrel ⊢
  generalize member? fs key = y at hrel ⊢
  cases hrel with
  | some hv => exact hv
  | none => exact hd

/-! ## Plain documents -/

/-- **Nothing in the document has been read yet**: besides arrays and objects there are only
scalars. -/
def Plain (d : Document) : Prop := d.Throughout fun p => ∀ v, p = .leaf v → v.isScalar = true

/-- Every numeral in the document stands for a number. -/
def Numeric (d : Document) : Prop := d.Throughout fun p => ∀ fault, p ≠ .faulty fault

theorem plain_leaf {v : Value} (h : v.isScalar = true) : (leaf v).Plain :=
  throughout_leaf.mpr fun _ he => leaf.inj he ▸ h

theorem plain_faulty {fault : NumeralFault} : (faulty fault).Plain := throughout_faulty.mpr nofun

theorem plain_array : (array ds).Plain ↔ ∀ d ∈ ds, d.Plain :=
  throughout_array.trans (and_iff_right fun _ h => nomatch h)

theorem plain_object : (object es).Plain ↔ ∀ e ∈ es, e.2.Plain :=
  throughout_object.trans (and_iff_right fun _ h => nomatch h)

theorem plain_nil : (array []).Plain := plain_array.mpr fun _ h => absurd h List.not_mem_nil

/-- What stands in for a missing entry may be taken for the entry. -/
theorem Plain.memberD (h : (object es).Plain) (key : Text) (hd : d.Plain) :
    ((member? es key).getD d).Plain := by
  cases hkey : member? es key with
  | none => exact hd
  | some x => exact plain_object.mp h _ (mem_of_member?_eq_some hkey)

/-- An object is read as a part of an automaton. -/
theorem ofObject_eq_ok {fs : List (Text × Value)} {v : Value} (h : Value.ofObject fs = .ok v) :
    (∃ t, v = .transition t) ∨ ∃ N, v = .nfa N := by
  unfold Value.ofObject at h
  dsimp only at h
  split at h
  · obtain ⟨t, _, ht⟩ := bind_eq_ok.mp h
    exact .inl ⟨t, (Except.ok.inj ht).symm⟩
  · split at h
    · obtain ⟨N, _, hN⟩ := bind_eq_ok.mp h
      exact .inr ⟨N, (Except.ok.inj hN).symm⟩
    · exact nomatch h

/-- What decodes to a value that is neither a list nor a part of an automaton is that value. -/
theorem decode_eq_ok_iff {v : Value} (hlist : ∀ vs, v ≠ .list vs) (ht : ∀ t, v ≠ .transition t)
    (hN : ∀ N, v ≠ .nfa N) : d.decode = .ok v ↔ d = .leaf v := by
  constructor
  · intro h
    cases d with
    | leaf w => exact congrArg _ (Except.ok.inj h)
    | faulty fault => exact nomatch h
    | array ds =>
      obtain ⟨vs, rfl, _⟩ := decode_array_eq_ok.mp h
      exact absurd rfl (hlist vs)
    | object es =>
      obtain ⟨fs, _, hv⟩ := decode_object_eq_ok.mp h
      obtain ⟨t, rfl⟩ | ⟨N, rfl⟩ := ofObject_eq_ok hv
      · exact absurd rfl (ht t)
      · exact absurd rfl (hN N)
  · rintro rfl
    rfl

theorem decode_eq_int {n : Int} : d.decode = .ok (.int n) ↔ d = .leaf (.int n) :=
  decode_eq_ok_iff nofun nofun nofun

theorem decode_eq_text {s : Text} : d.decode = .ok (.text s) ↔ d = .leaf (.text s) :=
  decode_eq_ok_iff nofun nofun nofun

/-- **In a plain document only an array decodes to a list.** -/
theorem Plain.decode_eq_list (hd : d.Plain) {vs : List Value} : d.decode = .ok (.list vs) ↔
    ∃ ds, d = .array ds ∧ List.Forall₂ (fun d v => d.decode = .ok v) ds vs := by
  constructor
  · intro h
    cases d with
    | leaf w =>
      obtain rfl := Except.ok.inj h
      exact absurd (hd.self _ rfl) Bool.false_ne_true
    | faulty fault => exact nomatch h
    | array ds =>
      obtain ⟨ws, hws, hds⟩ := decode_array_eq_ok.mp h
      exact ⟨ds, rfl, Value.list.inj hws ▸ hds⟩
    | object es =>
      obtain ⟨fs, _, hv⟩ := decode_object_eq_ok.mp h
      obtain ⟨t, ht⟩ | ⟨N, hN⟩ := ofObject_eq_ok hv
      · exact nomatch ht
      · exact nomatch hN
  · rintro ⟨ds, rfl, hds⟩
    exact decode_array_eq_ok.mpr ⟨vs, rfl, hds⟩

/-- An array of scalars. -/
def scalars {α : Type} (f : α → Value) (l : List α) : Document :=
  .array (l.map fun a => .leaf (f a))

/-- **In a plain document only an array of scalars decodes to a list of scalars.** -/
theorem Plain.decode_eq_scalars (hd : d.Plain) {α : Type} {f : α → Value}
    (hf : ∀ (d : Document) a, d.decode = .ok (f a) ↔ d = .leaf (f a)) {l : List α} :
    d.decode = .ok (.list (l.map f)) ↔ d = scalars f l := by
  rw [hd.decode_eq_list]
  simp only [List.forall₂_map_right_iff, hf]
  constructor
  · rintro ⟨ds, rfl, hds⟩
    refine congrArg _ ?_
    rwa [← List.forall₂_eq_eq_eq, List.forall₂_map_right_iff]
  · rintro rfl
    refine ⟨_, rfl, ?_⟩
    rw [List.forall₂_map_left_iff, List.forall₂_same]
    exact fun _ _ => rfl

end Document

end FiniteAutomata
