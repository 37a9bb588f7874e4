import FiniteAutomata.Proofs.Json5.Decoding

/-!
# Proofs/Json5/RoundTrip — automata come back from JSON

The object that an automaton is written as has a form that says just that automaton
(`Nfa.form_isIn`, `Nfa.form_says`), so it decodes to the automaton again if there are symbols
(`Nfa.decode_ofValue_toValue`). As JSON text it comes back exactly if there are symbols, the number
of states can be written, and in no symbol do two halves of a surrogate pair meet
(`Nfa.load_write_iff`).
-/

namespace FiniteAutomata

open Document

/-! ## The forms of what is written -/

/-- What the object of a transition says. -/
def Transition.form (t : Transition) : TransitionForm := ⟨t.source, t.target, t.inputs⟩

/-- What the object of an automaton says. -/
def Nfa.form (N : Nfa) : NfaForm :=
  ⟨N.stateCount, N.start, N.accepting.elems, N.alphabet.symbols, N.transitions.map (·.form)⟩

/-- The entries of the object of a transition. -/
def Transition.entries (t : Transition) : List (Text × Document) :=
  [("type", .leaf (.text "Transition")), ("current", .leaf (.int t.source)),
    ("target", .leaf (.int t.target)), ("inputs", scalars .text t.inputs)]

/-- The entries of the object of an automaton. -/
def Nfa.entries (N : Nfa) : List (Text × Document) :=
  [("type", .leaf (.text "NFA")), ("state_count", .leaf (.int N.stateCount)),
    ("start_state", .leaf (.int N.start)), ("accept_states", scalars .int N.accepting.elems),
    ("inputs", scalars .text N.alphabet.symbols),
    ("transitions", .array (N.transitions.map fun t => .object t.entries))]

theorem ofValue_ofTexts (as : List Text) : ofValue (.ofTexts as) = scalars .text as :=
  congrArg Document.array (ofValues_map (fun _ => rfl) as)

theorem Transition.ofValue_toValue (t : Transition) : ofValue t.toValue = .object t.entries := by
  simp only [toValue, entries, ofValue, Document.ofFields, ofValue_ofTexts]

theorem Nfa.ofValue_toValue (N : Nfa) : ofValue N.toValue = .object N.entries := by
  simp only [toValue, Amended.toValue, Amended.ofNfa, Amended.transitions, List.append_nil, entries,
    ofValue, Document.ofFields, ofValue_ofTexts, ofValues_map Transition.ofValue_toValue, scalars,
    ofValues_map (f := Value.int) fun _ => rfl]

theorem Transition.form_isIn (t : Transition) : t.form.IsIn t.entries := by
  constructor <;> rfl

theorem Transition.form_says (t : Transition) : t.form.Says t := ⟨rfl, rfl, .inr rfl⟩

theorem Nfa.form_isIn (N : Nfa) : N.form.IsIn N.entries := by
  refine ⟨rfl, rfl, rfl, rfl, rfl, N.transitions.map (·.entries), ?_, ?_⟩
  · rw [List.map_map]
    rfl
  · rw [form, List.forall₂_map_left_iff, List.forall₂_map_right_iff, List.forall₂_same]
    exact fun t _ => t.form_isIn

theorem Nfa.form_says {N : Nfa} (h : N.alphabet.symbols ≠ []) : N.form.Says N := by
  refine ⟨rfl, rfl, fun _ => Iff.rfl, rfl, h, ?_⟩
  rw [form, List.forall₂_map_left_iff, List.forall₂_same]
  exact fun t _ => t.form_says

/-! ## Reading what is written -/

theorem Transition.allReadable (t : Transition) : (object t.entries).AllReadable := by
  refine allReadable_object.mpr ⟨?_, ?_⟩
  · exact .inl ⟨t.form, t.form_isIn, TransitionForm.sound_iff.mpr ⟨t, t.form_says⟩⟩
  · simp only [entries, List.forall_mem_cons]
    exact ⟨allReadable_leaf, allReadable_leaf, allReadable_leaf, allReadable_scalars, nofun⟩

theorem Nfa.allReadable {N : Nfa} (h : N.alphabet.symbols ≠ []) :
    (object N.entries).AllReadable := by
  refine allReadable_object.mpr ⟨?_, ?_⟩
  · exact .inr ⟨N.form, N.form_isIn, NfaForm.sound_iff.mpr ⟨N, form_says h⟩⟩
  · simp only [entries, List.forall_mem_cons]
    exact ⟨allReadable_leaf, allReadable_leaf, allReadable_leaf, allReadable_scalars,
      allReadable_scalars, allReadable_array.mpr (List.forall_mem_map.mpr fun t _ => t.allReadable),
      nofun⟩

/-- A state of an automaton whose number of states can be written can be written. -/
theorem isLongInteger_of_inRange {n : Nat} (h : isLongInteger n = false) {s : State}
    (hs : InRange n s) : isLongInteger s = false := by
  obtain ⟨m, rfl⟩ := Int.eq_ofNat_of_zero_le hs.1
  refine decide_eq_false fun hle => of_decide_eq_false h (hle.trans ?_)
  exact Nat.le_of_lt (Int.ofNat_lt.mp hs.2)

theorem storable_ofTexts (as : List Text) : Json5.Storable (.ofTexts as) := by
  refine .list fun v hv => ?_
  obtain ⟨a, _, rfl⟩ := List.mem_map.mp hv
  exact .text a

theorem Transition.storable_toValue {n : Nat} {A : Alphabet} {t : Transition} (ht : t.Fits n A)
    (h : isLongInteger n = false) : Json5.Storable t.toValue := by
  refine .object ?_
  simp only [List.forall_mem_cons]
  exact ⟨.text _, .int (isLongInteger_of_inRange h ht.source_inRange),
    .int (isLongInteger_of_inRange h ht.target_inRange), storable_ofTexts _, nofun⟩

/-- **The object of an automaton can be written** if its number of states can be. -/
theorem Nfa.storable_toValue {N : Nfa} (h : isLongInteger N.stateCount = false) :
    Json5.Storable N.toValue := by
  refine .object ?_
  simp only [List.forall_mem_cons]
  refine ⟨.text _, .int h, .int (isLongInteger_of_inRange h N.start_inRange), .list fun v hv => ?_,
    storable_ofTexts _, .list fun v hv => ?_, nofun⟩
  · obtain ⟨s, hs, rfl⟩ := List.mem_map.mp hv
    exact .int (isLongInteger_of_inRange h (N.accepting_inRange s hs))
  · obtain ⟨t, ht, rfl⟩ := List.mem_map.mp hv
    rw [Amended.ofNfa, Amended.transitions, List.append_nil] at ht
    exact Transition.storable_toValue (N.transitions_fit t ht) h

/-- An automaton whose number of states cannot be written is not written. -/
theorem Nfa.write_toValue_of_long {N : Nfa} (h : isLongInteger N.stateCount) :
    Json5.write N.toValue = .error (.unwritable .longInteger) := by
  have hreason : Json5.unserializable? N.toValue = some (.unwritable .longInteger) := by
    change (none <|> ((unwritableInteger? N.stateCount).map Error.unwritable <|> _)) = _
    rw [unwritableInteger?, if_pos h]
    rfl
  rw [Json5.write, hreason]

/-- **The object of an automaton with symbols decodes to the automaton.** -/
theorem Nfa.decode_ofValue_toValue {N : Nfa} (h : isLongInteger N.stateCount = false)
    (hA : N.alphabet.symbols ≠ []) : (ofValue N.toValue).decode = .ok (.nfa N) := by
  have hstorable := storable_toValue h
  rw [decode_eq_nfa_iff (plain_ofValue hstorable) (numeric_ofValue hstorable), ofValue_toValue]
  exact ⟨allReadable hA, _, rfl, N.form, N.form_isIn, form_says hA⟩

/-! ## Symbols that come back -/

open Json5

theorem respelled_ofTexts (as : List Text) :
    respelled (.ofTexts as) = .ofTexts (as.map Text.rejoined) := by
  rw [Value.ofTexts, respelled, respelledAll_eq_map, List.map_map, Value.ofTexts, List.map_map]
  rfl

theorem map_rejoined_eq_self_iff {as : List Text} :
    as.map Text.rejoined = as ↔ ∀ a ∈ as, a.Unpaired := by
  have hid : as.map Text.rejoined = as.map id ↔ ∀ a ∈ as, a.rejoined = a := List.map_inj_left
  rw [List.map_id] at hid
  simp only [hid, Text.rejoined_eq_self_iff]

/-- The object of an automaton as it is read once it was written. -/
theorem Nfa.respelled_toValue (N : Nfa) :
    respelled N.toValue =
      .object [("type", .text "NFA"), ("state_count", .int N.stateCount),
        ("start_state", .int N.start),
        ("accept_states", .list (N.accepting.elems.map .int)),
        ("inputs", .ofTexts (N.alphabet.symbols.map Text.rejoined)),
        ("transitions", .list (N.transitions.map fun t => respelled t.toValue))] := by
  have haccepting : N.accepting.elems.map (respelled ∘ Value.int) = N.accepting.elems.map .int :=
    List.map_congr_left fun _ _ => rfl
  simp only [toValue, Amended.toValue, Amended.ofNfa, Amended.transitions, List.append_nil,
    respelled, respelledFields, respelledAll_eq_map, Text.rejoined_ofString, respelled_ofTexts,
    List.map_map, haccepting]
  rfl

/-- Nothing is changed in the object of a transition whose inputs come back. -/
theorem Transition.respelled_toValue {t : Transition} (h : ∀ a ∈ t.inputs, a.Unpaired) :
    respelled t.toValue = t.toValue := by
  simp only [toValue, respelled, respelledFields, Text.rejoined_ofString, respelled_ofTexts,
    map_rejoined_eq_self_iff.mpr h]

/-- **Nothing is changed in the object of an automaton whose symbols come back.** -/
theorem Nfa.respelled_toValue_eq_self {N : Nfa} (h : ∀ a ∈ N.alphabet, a.Unpaired) :
    respelled N.toValue = N.toValue := by
  have htransitions : N.transitions.map (fun t => respelled t.toValue) =
      N.transitions.map (·.toValue) :=
    List.map_congr_left fun t ht => Transition.respelled_toValue fun a ha =>
      h a ((N.transitions_fit t ht).inputs_mem a ha)
  rw [respelled_toValue, htransitions, map_rejoined_eq_self_iff.mpr h]
  simp only [toValue, Amended.toValue, Amended.ofNfa, Amended.transitions, List.append_nil]

/-- **An object that decodes to the automaton has its symbols**, so these came back. -/
theorem Nfa.unpaired_of_decode {N : Nfa} (h : isLongInteger N.stateCount = false)
    (hN : (ofValue (respelled N.toValue)).decode = .ok (.nfa N)) :
    N.alphabet.symbols ≠ [] ∧ ∀ a ∈ N.alphabet, a.Unpaired := by
  have hstorable := (storable_toValue h).respelled
  obtain ⟨-, es, hes, F, hin, hsays⟩ :=
    (decode_eq_nfa_iff (plain_ofValue hstorable) (numeric_ofValue hstorable)).mp hN
  have hinputs : member? es "inputs" =
      some (scalars .text (N.alphabet.symbols.map Text.rejoined)) := by
    rw [respelled_toValue] at hes
    obtain rfl := Document.object.inj hes
    exact congrArg some (ofValue_ofTexts _)
  have hsymbols : F.inputs = N.alphabet.symbols.map Text.rejoined :=
    scalars_injective (fun _ _ => Value.text.inj) (Option.some.inj (hin.inputs.symm.trans hinputs))
  have hinputs' : F.inputs = N.alphabet.symbols := hsays.inputs
  refine ⟨?_, map_rejoined_eq_self_iff.mp (hsymbols.symm.trans hinputs')⟩
  rw [← hinputs']
  exact hsays.inputs_ne_nil

/-! ## The round trip -/

/-- **An automaton comes back from JSON text** exactly if it has symbols, its number of states has
no more digits than a numeral may have, and in none of its symbols a first half of a surrogate pair
stands right before a second. -/
theorem Nfa.load_write_iff (N : Nfa) :
    (∃ text, Json5.write N.toValue = .ok text ∧ Json5.load text = .ok (.nfa N)) ↔
      N.alphabet.symbols ≠ [] ∧ N.stateCount < 10 ^ Text.numeralLimit ∧
        ∀ a ∈ N.alphabet, a.Unpaired := by
  have hshort : N.stateCount < 10 ^ Text.numeralLimit ↔ isLongInteger N.stateCount = false := by
    rw [isLongInteger, decide_eq_false_iff_not, Nat.not_le, Int.natAbs_natCast, Nat.pow_eq]
  rw [hshort]
  constructor
  · rintro ⟨text, hwrite, hload⟩
    have h : isLongInteger N.stateCount = false := by
      refine Bool.eq_false_iff.mpr fun hlong => ?_
      rw [write_toValue_of_long hlong] at hwrite
      cases hwrite
    obtain ⟨text', hwrite', hread⟩ := read_write (storable_toValue h)
    obtain rfl := Except.ok.inj (hwrite.symm.trans hwrite')
    obtain ⟨hA, hsymbols⟩ := unpaired_of_decode h ((load_of_read hread).symm.trans hload)
    exact ⟨hA, h, hsymbols⟩
  · rintro ⟨hA, h, hsymbols⟩
    obtain ⟨text, hwrite, hread⟩ := read_write (storable_toValue h)
    rw [respelled_toValue_eq_self hsymbols] at hread
    exact ⟨text, hwrite, (load_of_read hread).trans (decode_ofValue_toValue h hA)⟩

/-- The alphabet without symbols. -/
def noSymbols : Alphabet := ⟨[], .nil, List.not_mem_nil, List.not_mem_nil⟩

/-- One symbol that is made of the two halves of a surrogate pair. -/
def halves : Alphabet := ⟨[[.surrogate 0, .surrogate 0x400]], by decide, by decide, by decide⟩

/-- **Three automata that do not come back.** One without symbols is written, but the text is
refused. One whose symbol is two halves of a pair is written, and what is read has another symbol.
One whose number of states is too long is not written. -/
theorem Nfa.load_write_still :
    (∃ text, Json5.write (still 0 noSymbols).toValue = .ok text ∧
      Json5.load text = .error (.malformed (.emptyField "inputs"))) ∧
    (∃ text M, Json5.write (still 0 halves).toValue = .ok text ∧
      Json5.load text = .ok (.nfa M) ∧ M.alphabet.symbols = [[.ofNat 0x10000]]) ∧
    Json5.write (still (Nat.pow 10 Text.numeralLimit) noSymbols).toValue =
      .error (.unwritable .longInteger) := by
  refine ⟨?_, ?_, write_toValue_of_long (isLongInteger_still (Nat.le_refl _))⟩
  · obtain ⟨text, hwrite, hread⟩ :=
      read_write (storable_toValue (N := still 0 noSymbols) (by decide +kernel))
    exact ⟨text, hwrite, load_of_read hread⟩
  · obtain ⟨text, hwrite, hread⟩ :=
      read_write (storable_toValue (N := still 0 halves) (by decide +kernel))
    exact ⟨text, _, hwrite, load_of_read hread, rfl⟩

end FiniteAutomata
