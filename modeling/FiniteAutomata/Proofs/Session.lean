import FiniteAutomata.Proofs.Conversion.Language
import FiniteAutomata.Proofs.Nfa.Assembly
import FiniteAutomata.Proofs.Subset.Renaming
import FiniteAutomata.Session

/-!
# Proofs/Session — what is listed later changes what is shown, not what is done

Adding a transition changes the list and leaves the moves alone (`Amended.after_eq`), so after any
operations an automaton moves as it was built, and lists what has been added (`Amended.run_eq`). Its
list then shows the moves it has exactly if each added transition repeats moves that it had before
(`Nfa.agrees_iff`). If it does, the automaton that the list shows is equal to it in all that can be
asked (`Nfa.session_agrees_iff`).
-/

namespace FiniteAutomata

/-! ## Going through operations -/

/-- The transitions that an operation adds: one or none. -/
def Operation.added : Operation → List Transition
  | .append t => [t]
  | _ => []

namespace Amended

/-- **An operation leaves the moves alone and lists what it adds last.** -/
theorem after_eq (M : Amended) (o : Operation) : M.after o = ⟨M.base, M.added ++ o.added⟩ := by
  cases o <;> simp [after, append, Operation.added]

/-- **After any operations the moves are those at first**, and what was added is listed in turn. -/
theorem run_eq (m : Machine) (M : Amended) (os : List Operation) :
    (M.run m os).2 = ⟨M.base, M.added ++ os.flatMap Operation.added⟩ := by
  induction os generalizing M with
  | nil => simp [run]
  | cons o os ih => rw [run, ih, after_eq, List.flatMap_cons, List.append_assoc]

theorem validate_eq_ok_iff {M : Amended} :
    M.validate = .ok () ↔ ∀ t ∈ M.transitions, t.Fits M.base.stateCount M.base.alphabet := by
  rw [validate, forM_eq_ok_iff]
  refine forall₂_congr fun t _ => ?_
  constructor
  · intro h
    obtain ⟨p, hp, -⟩ := bind_eq_ok.mp h
    exact Transition.fit_eq_ok.mp hp ▸ p.2
  · exact fun h => bind_eq_ok.mpr ⟨⟨t, h⟩, Transition.fit_eq_ok.mpr rfl, rfl⟩

/-- The automaton that the list shows, if all of it fits. -/
def shown (M : Amended) (h : ∀ t ∈ M.transitions, t.Fits M.base.stateCount M.base.alphabet) : Nfa :=
  { M.base with transitions := M.transitions, transitions_fit := h }

end Amended

/-! ## Automata with the same moves -/

theorem StateSet.image_id (S : StateSet) : S.image id = S := StateSet.ext fun x => by simp

theorem Dfa.image_id (D : Dfa StateSet) : D.image id = D := by
  have hstates : D.states.map (·.image id) = D.states := by
    refine (List.map_congr_left fun q _ => ?_).trans (List.map_id _)
    rw [DfaState.image, StateSet.image_id]
    rfl
  obtain ⟨A, qs, F, hne, hfit⟩ := D
  simp only [image, StateSet.image_id, Dfa.mk.injEq, true_and, and_true]
  exact hstates

namespace Nfa

/-- **The automata have the same states and the same moves**, however these are listed. -/
structure SameMoves (N K : Nfa) : Prop where
  stateCount_eq : K.stateCount = N.stateCount
  alphabet_eq : K.alphabet = N.alphabet
  start_eq : K.start = N.start
  accepting_eq : K.accepting = N.accepting
  query_eq : ∀ s l, K.query s l = N.query s l

variable {N K : Nfa}

namespace SameMoves

variable (h : N.SameMoves K)

include h

theorem symm : K.SameMoves N where
  stateCount_eq := h.stateCount_eq.symm
  alphabet_eq := h.alphabet_eq.symm
  start_eq := h.start_eq.symm
  accepting_eq := h.accepting_eq.symm
  query_eq s l := (h.query_eq s l).symm

theorem isRenaming : N.IsRenaming K id where
  stateCount_eq := h.stateCount_eq
  alphabet_eq := h.alphabet_eq
  bijOn := Set.bijOn_id _
  start_eq := h.start_eq
  accepting_eq := h.accepting_eq.trans (StateSet.image_id _).symm
  query_eq s _ l _ := (h.query_eq s l).trans (StateSet.image_id _).symm

theorem closure_eq (S : StateSet) : K.closure S = N.closure S := by
  refine StateSet.ext fun x => ?_
  rw [mem_closure, mem_closure]
  exact exists_congr fun s => and_congr_right fun _ =>
    ⟨fun hp => h.symm.isRenaming.path_map hp, fun hp => h.isRenaming.path_map hp⟩

theorem queryValue_eq (s a : Value) : K.queryValue s a = N.queryValue s a := by
  simp only [queryValue, h.query_eq]

theorem toDfa_eq (limit : Value) : K.toDfa limit = N.toDfa limit := by
  rw [h.isRenaming.toDfa_image]
  cases N.toDfa limit with
  | error e => rfl
  | ok D => exact congrArg Except.ok D.image_id

end SameMoves

end Nfa

/-- **An automaton that lists the same and moves alike answers alike**, whatever is done with it. -/
theorem Amended.answer_eq {m : Machine} {M : Amended} {K : Nfa} (h : M.base.SameMoves K)
    (hlisted : K.transitions = M.transitions) (hvalid : M.validate = .ok ()) (o : Operation) :
    (ofNfa K).answer m o = M.answer m o := by
  -- The parts are made the same first: the checks of states are typed by the number of states.
  obtain ⟨⟨n, A, ts, q, F, hq, hF, hts⟩, added⟩ := M
  obtain ⟨n', A', listed, q', F', hq', hF', hlisted'⟩ := K
  obtain rfl : n' = n := h.stateCount_eq
  obtain rfl : A' = A := h.alphabet_eq
  obtain rfl : q' = q := h.start_eq
  obtain rfl : F' = F := h.accepting_eq
  obtain rfl : listed = ts ++ added := hlisted
  cases o with
  | append t => simp [answer, append, transitions, ofNfa]
  | validate => exact congrArg _ ((validate_ofNfa _).trans hvalid.symm)
  | query s a => exact congrArg _ (h.queryValue_eq s a)
  | move states a => simp only [answer, ofNfa, Nfa.moveValue, h.queryValue_eq]
  | closure seed => simp only [answer, ofNfa, Nfa.closureValue, h.closure_eq]
  | accepts w => exact congrArg _ (h.isRenaming.accepts_eq w)
  | construct limit => exact congrArg _ (h.toDfa_eq limit)
  | convert limit =>
    change Answer.conversion _ = Answer.conversion _
    rw [convert, convert, validate_ofNfa, hvalid, ofNfa, h.toDfa_eq]
  | transitions => simp [answer, transitions, ofNfa]
  | columns => simp [answer, columns, transitions, ofNfa]
  | write => simp [answer, toValue, transitions, ofNfa]
  | draw =>
    simp only [answer, draw, describe, obstacles, table, stateHeadings, columns, transitions, ofNfa,
      Nfa.states, h.query_eq, List.append_nil]
    rfl
  | diagram =>
    simp only [answer, describeDiagram, diagram, transitions, ofNfa, List.append_nil]
    rfl

/-! ## What is listed and what is done -/

/-- No transition reads the sign of the empty move as a symbol. -/
theorem Nfa.query_epsilonSign (N : Nfa) (s : State) :
    N.query s (.symbol epsilonSign) = ∅ := by
  refine StateSet.ext fun x => ⟨fun hx => ?_, fun hx => absurd hx (StateSet.notMem_empty x)⟩
  obtain ⟨t, -, hread, -⟩ := mem_query.mp hx
  exact absurd hread t.epsilon_notMem

namespace Amended

variable {m : Machine} {M : Amended}

/-- **The moves are those that the list shows.** -/
def Agrees (M : Amended) : Prop :=
  ∀ s l x, x ∈ M.base.query s l ↔ ∃ t ∈ M.transitions, t.Reads l ∧ t.source = s ∧ t.target = x

/-- **The list shows the moves exactly if what was added repeats them.** -/
theorem agrees_iff :
    M.Agrees ↔ ∀ t ∈ M.added, ∀ l, t.Reads l → t.target ∈ M.base.query t.source l := by
  constructor
  · exact fun h t ht l hl => (h _ _ _).mpr ⟨t, List.mem_append_right _ ht, hl, rfl, rfl⟩
  · intro h s l x
    constructor
    · intro hx
      obtain ⟨t, ht, hread⟩ := Nfa.mem_query.mp hx
      exact ⟨t, List.mem_append_left _ ht, hread⟩
    · rintro ⟨t, ht, hl, rfl, rfl⟩
      obtain ht | ht := List.mem_append.mp ht
      · exact Nfa.target_mem_query ht hl
      · exact h t ht l hl

/-- If the list shows the moves, whatever lists the same moves alike. -/
theorem Agrees.query_eq (h : M.Agrees) {K : Nfa} (hlisted : K.transitions = M.transitions)
    (s : State) (l : Label) : K.query s l = M.base.query s l := by
  refine StateSet.ext fun x => ?_
  rw [Nfa.mem_query, hlisted]
  exact (h s l x).symm

/-- An automaton that answers alike has the same moves. -/
theorem query_eq_of_answer {K : Nfa} (h : ∀ o, (ofNfa K).answer m o = M.answer m o) (s : State)
    (l : Label) : K.query s l = M.base.query s l := by
  have hasked (a : Symbol) : K.query s (.ofText a) = M.base.query s (.ofText a) :=
    Except.ok.inj (Answer.states.inj (h (.query (.int s) (.text a))))
  cases l with
  | epsilon => exact hasked epsilonSign
  | symbol a =>
    by_cases ha : a = epsilonSign
    · rw [ha, Nfa.query_epsilonSign, Nfa.query_epsilonSign]
    · have h := hasked a
      rwa [Label.ofText, if_neg ha] at h

/-- **If all that is listed fits, the list shows an automaton**, and that answers as this one does
exactly if the list shows the moves. -/
theorem exists_shown (m : Machine) (h : M.validate = .ok ()) : ∃ K : Nfa,
    K.transitions = M.transitions ∧ K.toValue = M.toValue ∧
      ((∀ o, (ofNfa K).answer m o = M.answer m o) ↔ M.Agrees) := by
  let K := M.shown (validate_eq_ok_iff.mp h)
  have hlisted : K.transitions = M.transitions := rfl
  refine ⟨K, hlisted, ?_, fun halike => ?_, fun hagrees => answer_eq ?_ hlisted h⟩
  · have hall : (ofNfa K).transitions = M.transitions := List.append_nil _
    rw [Nfa.toValue, toValue, toValue, hall]
    rfl
  · intro s l x
    rw [← query_eq_of_answer halike, Nfa.mem_query, hlisted]
  · exact ⟨rfl, rfl, rfl, rfl, hagrees.query_eq hlisted⟩

end Amended

/-- **What an automaton does and what it lists after any operations.** It moves as it was built and
lists what was added besides; the two agree exactly if every added transition repeats moves that
were there. If all of them fit, the list shows an automaton, and that is this one in all that can be
asked exactly if the two agree. -/
theorem Nfa.session_agrees_iff (m : Machine) (N : Nfa) (os : List Operation) :
    ∃ M, ((Amended.ofNfa N).run m os).2 = M ∧
      M.transitions = N.transitions ++ os.flatMap Operation.added ∧
      (∀ s a, M.answer m (.query s a) = .states (N.queryValue s a)) ∧
      (∀ w, M.answer m (.accepts w) = .verdict (N.accepts w)) ∧
      (M.Agrees ↔ ∀ t ∈ os.flatMap Operation.added, ∀ l, t.Reads l →
        t.target ∈ N.query t.source l) ∧
      (M.validate = .ok () ↔ ∀ t ∈ os.flatMap Operation.added,
        t.Fits N.stateCount N.alphabet) ∧
      (M.validate = .ok () → ∃ K : Nfa, K.transitions = M.transitions ∧ K.toValue = M.toValue ∧
        ((∀ o, (Amended.ofNfa K).answer m o = M.answer m o) ↔ M.Agrees)) := by
  refine ⟨⟨N, os.flatMap Operation.added⟩, Amended.run_eq m _ os, rfl, fun _ _ => rfl, fun _ => rfl,
    Amended.agrees_iff, ?_, Amended.exists_shown m⟩
  rw [Amended.validate_eq_ok_iff, Amended.transitions, List.forall_mem_append]
  exact and_iff_right N.transitions_fit

/-- One state, which accepts, and a symbol on which it leads nowhere. -/
def Nfa.idle : Nfa := .still 0 ⟨["b"], by decide, by decide, by decide⟩

/-- A way from the state to itself. -/
def Transition.around : Transition := ⟨0, 0, ["b"], by decide⟩

/-- **A transition that was added is listed and checked, but not taken.** -/
theorem Nfa.session_idle :
    (∀ m : Machine, (Amended.ofNfa idle).run m
        [.append .around, .validate, .transitions, .query (.int 0) (.text "b"), .accepts ["b"]] =
      ([.length 1, .check (.ok ()), .transitions [.around], .states (.ok ∅), .verdict false],
        ⟨idle, [.around]⟩)) ∧
      ¬ Amended.Agrees ⟨idle, [.around]⟩ := by
  refine ⟨?_, fun h => ?_⟩
  · exact fun _ => rfl
  · have hmem := Amended.agrees_iff.mp h _ List.mem_cons_self (.symbol "b") List.mem_cons_self
    exact absurd hmem (by decide)

end FiniteAutomata
