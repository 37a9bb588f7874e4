import FiniteAutomata.Proofs.Document.Refusal
import FiniteAutomata.Proofs.Json5.Plain
import FiniteAutomata.Proofs.Json5.Writing
import FiniteAutomata.Source

/-!
# Proofs/Json5/Decoding — which texts describe an automaton

A text that spells a document describes an automaton exactly if the document has the form of one and
every object in it can be read; the automaton is then what the form says. Every other text is
refused with a complaint about the description, but for those in which the type of an object holds
an automaton with more states than the machine at hand has room for (`Nfa.ofJson5_iff_form`).
-/

namespace FiniteAutomata

open Document

/-- A fault of a document or in it is put as one of the document. -/
theorem Error.IsFault.inDocument {e : Error} (h : e.IsFault) : e.inDocument = .document e :=
  if_pos h

section

variable {m : Machine} {text : Text} {d : Document}

theorem Json5.load_of_read (h : Json5.read text = .ok d) : Json5.load text = d.decode := by
  rw [Json5.load, h]
  rfl

/-- What is read from a text is decoded, and must be an automaton. -/
theorem Nfa.ofJson5_of_read (hdeep : m.tooDeep text = false) (h : Json5.read text = .ok d) :
    ofJson5 m text = match d.decode with
      | .error e => .error (e.raised m).inDocument
      | .ok (.nfa N) => .ok N
      | .ok v => .error (.notAutomaton v.kind) := by
  rw [← Json5.load_of_read h]
  exact if_neg (by simp [hdeep])

theorem Nfa.ofJson5_eq_ok_iff (hdeep : m.tooDeep text = false) (h : Json5.read text = .ok d)
    {N : Nfa} : ofJson5 m text = .ok N ↔ d.decode = .ok (.nfa N) := by
  rw [ofJson5_of_read hdeep h]
  cases d.decode with
  | error e => exact iff_of_false nofun nofun
  | ok v =>
    cases v with
    | nfa M => exact ⟨fun h => congrArg _ (congrArg _ (Except.ok.inj h)),
        fun h => congrArg _ (Value.nfa.inj (Except.ok.inj h))⟩
    | _ => exact iff_of_false nofun nofun

/-- **A document is refused as a description**, unless the type of an object holds too many states
to be put into words. -/
theorem Nfa.ofJson5_eq_error (hdeep : m.tooDeep text = false) (h : Json5.read text = .ok d)
    {e : Error} (he : ofJson5 m text = .error e) :
    e.category = .description ∨
      (∃ reason, reason.IsCrowd ∧ e = .unwritable reason) ∧ d.HasCrowdedType m := by
  rw [ofJson5_of_read hdeep h] at he
  cases hd : d.decode with
  | error cause =>
    rw [hd] at he
    obtain rfl := Except.error.inj he
    by_cases hfault : (cause.raised m).IsFault
    · exact .inl (by rw [hfault.inDocument]; rfl)
    · have hkept : (cause.raised m).inDocument = cause.raised m := if_neg hfault
      rw [hkept]
      exact .inr ((decode_eq_error (Json5.plain_of_read h) hd).resolve_left hfault)
  | ok v =>
    rw [hd] at he
    cases v with
    | nfa N => exact nomatch he
    | _ => exact .inl (Except.error.inj he ▸ rfl)

end

/-- **A text describes an automaton exactly if it spells a document of the right form**, all of
whose objects can be read. The automaton is the one that the form says. All other texts are refused
as descriptions, unless the type of an object holds more states than the machine has room for. -/
theorem Nfa.ofJson5_iff_form {m : Machine} {text : Text} {d : Document}
    (hdeep : m.tooDeep text = false) (h : Json5.read text = .ok d) (hn : d.Numeric) :
    ((∃ N, ofJson5 m text = .ok N) ↔
      d.AllReadable ∧ ∃ es, d = .object es ∧ ∃ F : NfaForm, F.IsIn es ∧ F.Sound) ∧
    (∀ N, ofJson5 m text = .ok N → ∀ es, d = .object es → ∀ F : NfaForm, F.IsIn es →
      N.toValue = F.toValue) ∧
    ∀ e, ofJson5 m text = .error e → e.category = .description ∨
      (e = .unwritable .noRoom ∨ e = .unwritable .tooManyStates) ∧ d.HasCrowdedType m := by
  have hp := Json5.plain_of_read h
  refine ⟨?_, fun N hN es hes F hF => ?_, fun e he => ?_⟩
  · simp only [ofJson5_eq_ok_iff hdeep h, decode_eq_nfa_iff hp hn, exists_and_left]
    refine and_congr_right fun _ => ⟨?_, ?_⟩
    · rintro ⟨N, es, hes, F, hF, hsays⟩
      exact ⟨es, hes, F, hF, NfaForm.sound_iff.mpr ⟨N, hsays⟩⟩
    · rintro ⟨es, hes, F, hF, hsound⟩
      obtain ⟨N, hsays⟩ := NfaForm.sound_iff.mp hsound
      exact ⟨N, es, hes, F, hF, hsays⟩
  · rw [ofJson5_eq_ok_iff hdeep h, decode_eq_nfa_iff hp hn] at hN
    obtain ⟨_, es', hes', F', hF', hsays⟩ := hN
    obtain rfl := Document.object.inj (hes'.symm.trans hes)
    obtain rfl := hF'.unique hF
    exact hsays.toValue_eq
  · refine (ofJson5_eq_error hdeep h he).imp_right (And.imp_left ?_)
    rintro ⟨reason, hcrowd, rfl⟩
    exact hcrowd.imp (congrArg _) (congrArg _)

/-- An automaton with more in it than is read: an accepting state said twice, the sign of the empty
move, and a note that holds a transition of no automaton. -/
def annotated : Value :=
  .object [("note", .list [.object [("type", .text "Transition"), ("current", .int 7),
      ("target", .int (-7))]]),
    ("type", .text "NFA"), ("state_count", .int 2), ("start_state", .int 0),
    ("accept_states", .list [.int 1, .int 0, .int 1]), ("inputs", .list [.text "a"]),
    ("transitions", .list [.object [("type", .text "Transition"), ("current", .int 0),
      ("target", .int 1), ("inputs", .list [.text "ε"])]])]

/-- What is read of it. -/
def annotatedForm : NfaForm := ⟨2, 0, [1, 0, 1], ["a"], [⟨0, 1, ["ε"]⟩]⟩

theorem storable_annotated : Json5.Storable annotated := by
  simp only [annotated, Json5.storable_object, Json5.storable_list, Json5.storable_int,
    Json5.storable_text, List.forall_mem_cons, List.not_mem_nil, false_implies, implies_true]
  decide +kernel

theorem annotatedForm_isIn : ∃ es, ofValue annotated = .object es ∧ annotatedForm.IsIn es :=
  ⟨_, rfl, rfl, rfl, rfl, rfl, rfl, [_], rfl, .cons ⟨rfl, rfl, rfl, rfl⟩ .nil⟩

theorem annotatedForm_sound : annotatedForm.Sound := by
  constructor <;> decide

theorem allReadable_annotated : (ofValue annotated).AllReadable := by
  simp only [annotated, ofValue, ofFields, ofValues, allReadable_object, allReadable_array,
    allReadable_leaf, List.forall_mem_cons, List.not_mem_nil, false_implies, implies_true, and_true,
    true_and]
  refine ⟨.inr ⟨annotatedForm, ?_, annotatedForm_sound⟩,
    .inl ⟨⟨7, -7, []⟩, ?_, .inr List.not_mem_nil⟩, .inl ⟨⟨0, 1, ["ε"]⟩, ?_, .inl rfl⟩⟩
  · obtain ⟨_, hes, hin⟩ := annotatedForm_isIn
    obtain rfl := object.inj hes
    exact hin
  · exact ⟨rfl, rfl, rfl, rfl⟩
  · exact ⟨rfl, rfl, rfl, rfl⟩

/-- What the value is written as spells it. -/
theorem read_annotated : Json5.read (Json5.written annotated) = .ok (ofValue annotated) :=
  Json5.read_written storable_annotated

theorem Nfa.ofJson5_iff_form_annotated :
    ∃ text, Machine.ample.tooDeep text = false ∧ Json5.read text = .ok (ofValue annotated) ∧
      (ofValue annotated).Numeric ∧
      ∃ N, ofJson5 .ample text = .ok N ∧ N.toValue = annotatedForm.toValue := by
  have hnumeric := numeric_ofValue storable_annotated
  obtain ⟨es, hes, hin⟩ := annotatedForm_isIn
  have h := ofJson5_iff_form (m := .ample) rfl read_annotated hnumeric
  obtain ⟨N, hN⟩ :=
    h.1.mpr ⟨allReadable_annotated, es, hes, annotatedForm, hin, annotatedForm_sound⟩
  exact ⟨_, rfl, read_annotated, hnumeric, N, hN, h.2.1 N hN es hes annotatedForm hin⟩

/-- An object whose type is an automaton with more states than any list has members. -/
def crowded : Value :=
  .object [("type", .object [("type", .text "NFA"), ("state_count", .int 9223372036854775808),
    ("start_state", .int 0), ("inputs", .list [.text "a"])])]

theorem storable_crowded : Json5.Storable crowded := by
  simp only [crowded, Json5.storable_object, Json5.storable_list, Json5.storable_int,
    Json5.storable_text, List.forall_mem_cons, List.not_mem_nil, false_implies, implies_true]
  decide +kernel

/-- **Not every text is refused as a description**: one is for its many states, on any machine. -/
theorem Nfa.ofJson5_crowded :
    ∃ text, Json5.read text = .ok (ofValue crowded) ∧
      (∀ m : Machine, m.tooDeep text = false →
        ofJson5 m text = .error (.unwritable .tooManyStates)) ∧
      (Error.unwritable .tooManyStates).category = .overflow := by
  have hread : Json5.read (Json5.written crowded) = .ok (ofValue crowded) :=
    Json5.read_written storable_crowded
  refine ⟨_, hread, fun m hdeep => ?_, rfl⟩
  rw [ofJson5_of_read hdeep hread]
  rfl

end FiniteAutomata
