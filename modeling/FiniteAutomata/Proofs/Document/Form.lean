import FiniteAutomata.Proofs.Document.Parts
import FiniteAutomata.Proofs.Nfa.Assembly
import Mathlib.Data.Finset.Sort

/-!
# Proofs/Document/Form — the form of a document that describes an automaton

What an object says about a transition or an automaton is put down as it is written
(`TransitionForm`, `NfaForm`), and whether that makes sense is a condition on it alone
(`TransitionForm.Sound`, `NfaForm.Sound`): exactly the sound forms describe something
(`TransitionForm.sound_iff`, `NfaForm.sound_iff`). Written out again, the automaton that a form
describes is the form in its canonical shape (`NfaForm.Says.toValue_eq`).
-/

namespace FiniteAutomata

open Document

/-! ## Forms -/

/-- **What an object says about a transition**, the inputs as they are written. -/
structure TransitionForm where
  source : Int
  target : Int
  inputs : List Text

namespace TransitionForm

/-- The object with these entries is of type `Transition` and says this. -/
structure IsIn (m : TransitionForm) (es : List (Text × Document)) : Prop where
  type : member? es "type" = some (.leaf (.text "Transition"))
  source : member? es "current" = some (.leaf (.int m.source))
  target : member? es "target" = some (.leaf (.int m.target))
  inputs : (member? es "inputs").getD (.array []) = scalars .text m.inputs

/-- The sign of the empty move is no input among others. -/
def Sound (m : TransitionForm) : Prop := m.inputs = [epsilonSign] ∨ epsilonSign ∉ m.inputs

/-- The inputs, none if there is only the sign of the empty move. -/
def canonicalInputs (m : TransitionForm) : List Text :=
  if m.inputs = [epsilonSign] then [] else m.inputs

/-- The form as an object again. -/
def toValue (m : TransitionForm) : Value :=
  .object [("type", .text "Transition"), ("current", .int m.source), ("target", .int m.target),
    ("inputs", .ofTexts m.canonicalInputs)]

/-- The form describes the transition. -/
structure Says (m : TransitionForm) (t : Transition) : Prop where
  source : m.source = t.source
  target : m.target = t.target
  inputs : m.inputs = [epsilonSign] ∧ t.inputs = [] ∨ m.inputs = t.inputs

end TransitionForm

/-- **What an object says about an automaton**, as it is written. -/
structure NfaForm where
  count : Int
  start : Int
  accepting : List Int
  inputs : List Text
  transitions : List TransitionForm

namespace NfaForm

/-- **The object with these entries is of type `NFA` and says this.** Accepting states and
transitions may be left out if there are none. -/
structure IsIn (F : NfaForm) (es : List (Text × Document)) : Prop where
  type : member? es "type" = some (.leaf (.text "NFA"))
  count : member? es "state_count" = some (.leaf (.int F.count))
  start : member? es "start_state" = some (.leaf (.int F.start))
  accepting : (member? es "accept_states").getD (.array []) = scalars .int F.accepting
  inputs : member? es "inputs" = some (scalars .text F.inputs)
  transitions : ∃ objects,
    (member? es "transitions").getD (.array []) = .array (objects.map .object) ∧
      List.Forall₂ (fun es m => TransitionForm.IsIn m es) objects F.transitions

/-- **The form makes sense**: all states are among the first `count`, the inputs are some distinct
symbols, and every transition is an empty move or on inputs of the automaton. -/
structure Sound (F : NfaForm) : Prop where
  count_pos : 0 < F.count
  start_inRange : 0 ≤ F.start ∧ F.start < F.count
  accepting_inRange : ∀ s ∈ F.accepting, 0 ≤ s ∧ s < F.count
  inputs_ne_nil : F.inputs ≠ []
  inputs_nodup : F.inputs.Nodup
  inputs_valid : ∀ a ∈ F.inputs, a ≠ "" ∧ a ≠ epsilonSign
  source_inRange : ∀ m ∈ F.transitions, 0 ≤ m.source ∧ m.source < F.count
  target_inRange : ∀ m ∈ F.transitions, 0 ≤ m.target ∧ m.target < F.count
  inputs_mem : ∀ m ∈ F.transitions, m.inputs = [epsilonSign] ∨ ∀ a ∈ m.inputs, a ∈ F.inputs

/-- **The canonical shape of the form**: nothing is left out or said twice, the accepting states are
in order, and empty moves have no inputs. -/
def toValue (F : NfaForm) : Value :=
  .object [("type", .text "NFA"), ("state_count", .int F.count), ("start_state", .int F.start),
    ("accept_states", .list ((F.accepting.toFinset.sort (· ≤ ·)).map .int)),
    ("inputs", .ofTexts F.inputs), ("transitions", .list (F.transitions.map (·.toValue)))]

/-- The form describes the automaton. -/
structure Says (F : NfaForm) (N : Nfa) : Prop where
  count : F.count = N.stateCount
  start : F.start = N.start
  accepting : ∀ s, s ∈ N.accepting ↔ s ∈ F.accepting
  inputs : F.inputs = N.alphabet.symbols
  inputs_ne_nil : F.inputs ≠ []
  transitions : List.Forall₂ TransitionForm.Says F.transitions N.transitions

end NfaForm

/-- **The object with these entries can be read**: it has a sound form. -/
def Readable (es : List (Text × Document)) : Prop :=
  (∃ m : TransitionForm, m.IsIn es ∧ m.Sound) ∨ ∃ F : NfaForm, F.IsIn es ∧ F.Sound

/-! ## One object, one form -/

theorem scalars_injective {α : Type} {f : α → Value} (hf : Function.Injective f) :
    Function.Injective (scalars f) := by
  intro l m h
  have hleaf : Function.Injective fun a => Document.leaf (f a) :=
    fun _ _ he => hf (Document.leaf.inj he)
  exact List.map_injective_iff.mpr hleaf (Document.array.inj h)

/-- What an object says about a transition is decided by its entries. -/
theorem TransitionForm.IsIn.unique {m m' : TransitionForm} {es : List (Text × Document)}
    (h : m.IsIn es) (h' : m'.IsIn es) : m = m' := by
  obtain ⟨_, _, as⟩ := m
  obtain ⟨_, _, bs⟩ := m'
  have hsource := h.source.symm.trans h'.source
  have htarget := h.target.symm.trans h'.target
  obtain rfl : as = bs :=
    scalars_injective (fun _ _ => Value.text.inj) (h.inputs.symm.trans h'.inputs)
  simp_all

/-- **What an object says about an automaton is decided by its entries.** -/
theorem NfaForm.IsIn.unique {F F' : NfaForm} {es : List (Text × Document)} (h : F.IsIn es)
    (h' : F'.IsIn es) : F = F' := by
  obtain ⟨_, _, l, as, ms⟩ := F
  obtain ⟨_, _, l', as', ms'⟩ := F'
  have hcount := h.count.symm.trans h'.count
  have hstart := h.start.symm.trans h'.start
  obtain rfl : l = l' :=
    scalars_injective (fun _ _ => Value.int.inj) (h.accepting.symm.trans h'.accepting)
  obtain rfl : as = as' := scalars_injective (fun _ _ => Value.text.inj)
    (Option.some.inj (h.inputs.symm.trans h'.inputs))
  obtain rfl : ms = ms' := by
    obtain ⟨objects, hobjects, hin⟩ := h.transitions
    obtain ⟨objects', hobjects', hin'⟩ := h'.transitions
    obtain rfl : objects = objects' := List.map_injective_iff.mpr (fun _ _ => Document.object.inj)
      (Document.array.inj (hobjects.symm.trans hobjects'))
    have hunique : Relator.RightUnique fun (es : List (Text × Document)) m =>
        TransitionForm.IsIn m es := fun _ _ _ => TransitionForm.IsIn.unique
    exact hunique.forall₂ hin hin'
  simp_all

/-! ## Sound forms say something -/

theorem TransitionForm.sound_iff {m : TransitionForm} : m.Sound ↔ ∃ t, m.Says t := by
  constructor
  · rintro (h | h)
    · exact ⟨⟨m.source, m.target, [], by simp⟩, rfl, rfl, .inl ⟨h, rfl⟩⟩
    · exact ⟨⟨m.source, m.target, m.inputs, h⟩, rfl, rfl, .inr rfl⟩
  · rintro ⟨t, -, -, ⟨h, -⟩ | h⟩
    · exact .inl h
    · exact .inr (h ▸ t.epsilon_notMem)

theorem TransitionForm.Says.canonicalInputs_eq {m : TransitionForm} {t : Transition}
    (h : m.Says t) : m.canonicalInputs = t.inputs := by
  unfold canonicalInputs
  obtain ⟨hm, ht⟩ | hm := h.inputs
  · rw [if_pos hm, ht]
  · have hne : m.inputs ≠ [epsilonSign] := fun he =>
      t.epsilon_notMem (hm ▸ he ▸ List.mem_singleton_self _)
    rw [if_neg hne, hm]

theorem TransitionForm.Says.toValue_eq {m : TransitionForm} {t : Transition} (h : m.Says t) :
    t.toValue = m.toValue := by
  rw [Transition.toValue, TransitionForm.toValue, h.source, h.target, h.canonicalInputs_eq]

/-- **The automaton of a form is written out in the canonical shape of the form.** -/
theorem NfaForm.Says.toValue_eq {F : NfaForm} {N : Nfa} (h : F.Says N) : N.toValue = F.toValue := by
  have haccepting : N.accepting.elems = F.accepting.toFinset.sort (· ≤ ·) := by
    refine StateSet.eq_of_mem_iff_of_pairwise N.accepting.ascending
      (Finset.sortedLT_sort _).pairwise fun s => ?_
    rw [Finset.mem_sort, List.mem_toFinset]
    exact h.accepting s
  have htransitions : N.transitions.map (·.toValue) = F.transitions.map (·.toValue) := by
    rw [← List.forall₂_eq_eq_eq, List.forall₂_map_left_iff, List.forall₂_map_right_iff]
    exact (h.transitions.imp fun _ _ hm => hm.toValue_eq).flip
  simp only [Nfa.toValue, Amended.toValue, Amended.ofNfa, Amended.transitions, List.append_nil,
    NfaForm.toValue, h.count, h.start, h.inputs, haccepting, htransitions]

namespace NfaForm

variable {F : NfaForm} {N : Nfa}

/-- The alphabet of a sound form. -/
def Sound.alphabet (h : F.Sound) : Alphabet where
  symbols := F.inputs
  nodup := h.inputs_nodup
  epsilon_notMem := fun he => (h.inputs_valid _ he).2 rfl
  empty_notMem := fun he => (h.inputs_valid _ he).1 rfl

theorem Sound.inRange_iff (h : F.Sound) {s : State} :
    InRange F.count.toNat s ↔ 0 ≤ s ∧ s < F.count := by
  rw [InRange, Int.toNat_of_nonneg h.count_pos.le]

theorem Sound.transition_sound (h : F.Sound) {m : TransitionForm} (hm : m ∈ F.transitions) :
    m.Sound :=
  (h.inputs_mem m hm).imp_right fun hmem he => (h.inputs_valid _ (hmem _ he)).2 rfl

theorem Sound.fits (h : F.Sound) {m : TransitionForm} (hm : m ∈ F.transitions) {t : Transition}
    (hmt : m.Says t) : t.Fits F.count.toNat h.alphabet := by
  refine ⟨h.inRange_iff.mpr ?_, h.inRange_iff.mpr ?_, fun a ha => ?_⟩
  · exact hmt.source ▸ h.source_inRange m hm
  · exact hmt.target ▸ h.target_inRange m hm
  · obtain ⟨_, hnil⟩ | heq := hmt.inputs
    · exact absurd ha (hnil ▸ List.not_mem_nil)
    · obtain hm' | hmem := h.inputs_mem m hm
      · exact absurd (heq ▸ hm' ▸ List.mem_singleton_self _) t.epsilon_notMem
      · exact hmem a (heq ▸ ha)

/-- **A sound form says something.** -/
theorem Sound.exists_says (h : F.Sound) : ∃ N, F.Says N := by
  obtain ⟨ts, hts⟩ := exists_forall₂_iff.mpr fun m hm =>
    TransitionForm.sound_iff.mp (h.transition_sound hm)
  refine ⟨{
    stateCount := F.count.toNat
    alphabet := h.alphabet
    transitions := ts
    start := F.start
    accepting := .ofList F.accepting
    start_inRange := h.inRange_iff.mpr h.start_inRange
    accepting_inRange := fun s hs =>
      h.inRange_iff.mpr (h.accepting_inRange s (StateSet.mem_ofList.mp hs))
    transitions_fit := fun t ht => ?_ }, ?_⟩
  · obtain ⟨m, hm, hmt⟩ := exists_of_forall₂_of_mem hts ht
    exact h.fits hm hmt
  · exact ⟨(Int.toNat_of_nonneg h.count_pos.le).symm, rfl, fun s => StateSet.mem_ofList, rfl,
      h.inputs_ne_nil, hts⟩

theorem Says.exists_transition (h : F.Says N) {m : TransitionForm} (hm : m ∈ F.transitions) :
    ∃ t, t.Fits N.stateCount N.alphabet ∧ m.Says t := by
  obtain ⟨t, ht, hmt⟩ := exists_of_forall₂_of_mem h.transitions.flip hm
  exact ⟨t, N.transitions_fit t ht, hmt⟩

/-- **A form that says something is sound.** -/
theorem Says.sound (h : F.Says N) : F.Sound where
  count_pos := h.count ▸ N.start_inRange.1.trans_lt N.start_inRange.2
  start_inRange := h.start ▸ h.count ▸ N.start_inRange
  accepting_inRange := fun s hs => h.count ▸ N.accepting_inRange s ((h.accepting s).mpr hs)
  inputs_ne_nil := h.inputs_ne_nil
  inputs_nodup := h.inputs ▸ N.alphabet.nodup
  inputs_valid := by
    rw [h.inputs]
    exact fun a ha => ⟨fun he => N.alphabet.empty_notMem (he ▸ ha),
      fun he => N.alphabet.epsilon_notMem (he ▸ ha)⟩
  source_inRange := fun m hm => by
    obtain ⟨t, ht, hmt⟩ := h.exists_transition hm
    exact hmt.source ▸ h.count ▸ ht.source_inRange
  target_inRange := fun m hm => by
    obtain ⟨t, ht, hmt⟩ := h.exists_transition hm
    exact hmt.target ▸ h.count ▸ ht.target_inRange
  inputs_mem := fun m hm => by
    obtain ⟨t, ht, hmt⟩ := h.exists_transition hm
    refine hmt.inputs.imp (·.1) fun heq a ha => ?_
    rw [h.inputs]
    exact ht.inputs_mem a (heq ▸ ha)

theorem sound_iff : F.Sound ↔ ∃ N, F.Says N := ⟨Sound.exists_says, fun ⟨_, h⟩ => h.sound⟩

end NfaForm

end FiniteAutomata
