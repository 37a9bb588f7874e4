import FiniteAutomata.Lookup
import FiniteAutomata.Proofs.Nfa.Refusal
import FiniteAutomata.Proofs.Nfa.Traversal

/-!
# Proofs/Nfa/Closure — closures of listed values

Values from which empty moves are to be followed must all be states. The first that is not is
complained about (`Nfa.closureValue_list_eq_error_iff`), unless an integer in the words of the
complaint is too long to be written (`Value.category_stateFault`). Otherwise the answer is the least
closed set that holds them (`Nfa.closureValue_list_eq_ok_iff`), and every traversal that starts from
them comes to it. `Nfa.closureValue_list` puts this together; a complaint that cannot be written is
in `Nfa.closureValue_vast`.
-/

namespace FiniteAutomata

/-! ## Values that are states -/

namespace Value

variable {v : Value} {n : Nat} {field : Text} {e : Error}

/-- **The value is one of the first `n` states.** -/
def IsState (n : Nat) (v : Value) : Prop := ∃ s, v = .int s ∧ InRange n s

/-- **What there is to say against a value that is no state**: that it is no integer, or which
integers are states. -/
def stateFault (n : Nat) (field : Text) : Value → Error
  | .int s => .ofMalformed (.noSuchState field s (.int n))
  | v => .malformed (.wrongKind field .int v.kind)

/-- The value is an integer, and it or the number of states is too long to be written. -/
def HasLongFault (n : Nat) (v : Value) : Prop :=
  ∃ s, v = .int s ∧ (isLongInteger s ∨ isLongInteger n)

theorem exists_checkState_eq_ok (field : Text) :
    (∃ p, v.checkState n field = .ok p) ↔ v.IsState n := by
  simp only [checkState_eq_ok, Subtype.exists]
  constructor
  · rintro ⟨s, hs, rfl⟩
    exact ⟨s, rfl, hs⟩
  · rintro ⟨s, rfl, hs⟩
    exact ⟨s, hs, rfl⟩

/-- **The check refuses exactly what is no state**, and says what there is to say against it. -/
theorem checkState_eq_error_iff :
    v.checkState n field = .error e ↔ ¬ v.IsState n ∧ e = v.stateFault n field := by
  rw [← exists_checkState_eq_ok field]
  by_cases hint : ∃ s, v = .int s
  · obtain ⟨s, rfl⟩ := hint
    by_cases hs : 0 ≤ s ∧ s < n
    · have hok : (Value.int s).checkState n field = .ok ⟨s, hs⟩ := checkState_eq_ok.mpr rfl
      simp [hok]
    · have herror : (Value.int s).checkState n field =
          .error ((Value.int s).stateFault n field) := dif_neg hs
      simp [herror, eq_comm]
  · have herror : v.checkState n field = .error (v.stateFault n field) := by
      cases v with
      | int s => exact absurd ⟨s, rfl⟩ hint
      | _ => rfl
    simp [herror, eq_comm]

/-- **A complaint about a state cannot be written if it or the number of states is too long.** -/
theorem stateFault_of_long (h : v.HasLongFault n) :
    v.stateFault n field = .unwritable .longInteger := by
  obtain ⟨s, rfl, hlong⟩ := h
  rw [stateFault, Error.ofMalformed, Malformed.obstacles, Value.obstacles]
  by_cases hs : isLongInteger s
  · rw [obstacles_of_long hs]
    rfl
  · rw [obstacles_of_short hs, obstacles_of_long (hlong.resolve_left hs)]
    rfl

/-- **What there is to say is a complaint about the configuration**, unless it cannot be written. -/
theorem category_stateFault :
    (v.stateFault n field).category = .configuration ↔ ¬ v.HasLongFault n := by
  constructor
  · intro hcategory hlong
    rw [stateFault_of_long hlong] at hcategory
    nomatch hcategory
  · intro hshort
    by_cases hint : ∃ s, v = .int s
    · obtain ⟨s, rfl⟩ := hint
      have hcomplaint : ((Value.int s).stateFault n field).IsComplaint
          (isLongInteger s ∨ isLongInteger n) := by
        rw [stateFault]
        exact isComplaint_noSuchState
      exact hcomplaint.category_eq fun hlong => hshort ⟨s, rfl, hlong⟩
    · cases v with
      | int s => exact absurd ⟨s, rfl⟩ hint
      | _ => rfl

end Value

namespace Nfa

variable {N : Nfa} {seeds : List State} {S T : StateSet} {vs : List Value} {e : Error}

/-! ## What empty moves reach -/

/-- **The set is what empty moves reach from the states listed**: what paths without symbols lead
to, and the least set that holds them and is left by no empty move. -/
structure IsClosureOf (N : Nfa) (seeds : List State) (S : StateSet) : Prop where
  mem_iff : ∀ x, x ∈ S ↔ ∃ s ∈ seeds, N.Path s [] x
  seeds_mem : ∀ s ∈ seeds, s ∈ S
  isClosed : N.IsClosed S
  least : ∀ T : StateSet, (∀ s ∈ seeds, s ∈ T) → N.IsClosed T → ∀ x ∈ S, x ∈ T

theorem isClosureOf_closure (N : Nfa) (seeds : List State) :
    N.IsClosureOf seeds (N.closure (.ofList seeds)) where
  mem_iff x := by simp only [mem_closure, StateSet.mem_ofList]
  seeds_mem s hs := mem_closure.mpr ⟨s, StateSet.mem_ofList.mpr hs, .done s⟩
  isClosed := isClosed_closure _
  least T hT hclosed x hx := by
    obtain ⟨s, hs, hpath⟩ := mem_closure.mp hx
    exact hclosed.mem_of_path hpath rfl (hT s (StateSet.mem_ofList.mp hs))

theorem IsClosureOf.unique (hS : N.IsClosureOf seeds S) (hT : N.IsClosureOf seeds T) : S = T :=
  StateSet.ext fun x => (hS.mem_iff x).trans (hT.mem_iff x).symm

/-! ## Closures of lists -/

theorem closureValue_list_eq : N.closureValue (.list vs) =
    (vs.mapM fun v => v.checkState N.stateCount "epsilon_closure.seed") >>= fun states =>
      .ok (N.closure (.ofList (states.map (·.1)))) := rfl

/-- **Values that are states are closed**, and the answer is what empty moves reach from them. -/
theorem closureValue_list_eq_ok_iff : N.closureValue (.list vs) = .ok S ↔
    ∃ seeds : List State, vs = seeds.map .int ∧ (∀ s ∈ seeds, InRange N.stateCount s) ∧
      N.IsClosureOf seeds S := by
  rw [closureValue_list_eq, bind_eq_ok]
  constructor
  · rintro ⟨states, hstates, hS⟩
    have hvs := (mapM_eq_ok_iff_eq_map fun _ _ => Value.checkState_eq_ok).mp hstates
    refine ⟨states.map (·.1), by rw [hvs, List.map_map]; rfl, ?_, ?_⟩
    · exact List.forall_mem_map.mpr fun p _ => p.2
    · exact Except.ok.inj hS ▸ N.isClosureOf_closure _
  · rintro ⟨seeds, rfl, hrange, hS⟩
    obtain ⟨states, hstates, hvals⟩ := Value.exists_mapM_checkState "epsilon_closure.seed" hrange
    refine ⟨states, hstates, ?_⟩
    rw [hvals, hS.unique (N.isClosureOf_closure seeds)]

/-- **The first value that is no state is complained about.** -/
theorem closureValue_list_eq_error_iff : N.closureValue (.list vs) = .error e ↔
    ∃ before v after, vs = before ++ v :: after ∧ (∀ u ∈ before, u.IsState N.stateCount) ∧
      ¬ v.IsState N.stateCount ∧ e = v.stateFault N.stateCount "epsilon_closure.seed" := by
  have hnever : ¬ ∃ states : List { s : State // 0 ≤ s ∧ s < (N.stateCount : Int) },
      (vs.mapM fun v => v.checkState N.stateCount "epsilon_closure.seed") = .ok states ∧
        Except.ok (N.closure (.ofList (states.map (·.1)))) = .error e :=
    fun ⟨_, _, h⟩ => nomatch h
  rw [closureValue_list_eq, bind_eq_error, or_iff_left hnever, mapM_eq_error_iff]
  simp only [Value.exists_checkState_eq_ok, Value.checkState_eq_error_iff]

/-- **A list is refused exactly if something in it is no state.** -/
theorem exists_closureValue_list_eq_error_iff :
    (∃ e, N.closureValue (.list vs) = .error e) ↔ ∃ v ∈ vs, ¬ v.IsState N.stateCount := by
  constructor
  · rintro ⟨e, he⟩
    obtain ⟨before, v, after, rfl, -, hv, -⟩ := closureValue_list_eq_error_iff.mp he
    exact ⟨v, List.mem_append_right _ List.mem_cons_self, hv⟩
  · rintro ⟨v, hmem, hv⟩
    cases hvs : N.closureValue (.list vs) with
    | error e => exact ⟨e, rfl⟩
    | ok S =>
      obtain ⟨seeds, rfl, hrange, -⟩ := closureValue_list_eq_ok_iff.mp hvs
      obtain ⟨s, hs, rfl⟩ := List.mem_map.mp hmem
      exact absurd ⟨s, rfl, hrange s hs⟩ hv

/-- **Closures are refused for what is no state, and are least closed sets otherwise.** A list is
refused exactly if something in it is no state, and then for the first such value; that is a
complaint about the configuration unless the value is an integer and it or the number of states is
too long for the complaint to be written. Otherwise the answer is what empty moves reach from the
states listed; no traversal that starts from them goes on for ever, in whatever order it comes to
targets, and where one ends, it has seen just the answer. -/
theorem closureValue_list (N : Nfa) (vs : List Value) :
    ((∃ e, N.closureValue (.list vs) = .error e) ↔ ∃ v ∈ vs, ¬ v.IsState N.stateCount) ∧
    (∀ e, N.closureValue (.list vs) = .error e ↔
      ∃ before v after, vs = before ++ v :: after ∧ (∀ u ∈ before, u.IsState N.stateCount) ∧
        ¬ v.IsState N.stateCount ∧ e = v.stateFault N.stateCount "epsilon_closure.seed" ∧
        (e.category = .configuration ↔ ¬ v.HasLongFault N.stateCount) ∧
        (v.HasLongFault N.stateCount → e = .unwritable .longInteger)) ∧
    (∀ S, N.closureValue (.list vs) = .ok S ↔
      ∃ seeds : List State, vs = seeds.map .int ∧ (∀ s ∈ seeds, InRange N.stateCount s) ∧
        N.IsClosureOf seeds S) ∧
    (WellFounded fun u t => N.Round t u) ∧
    ∀ (seeds : List State) (S : StateSet) (t : Traversal), vs = seeds.map .int →
      N.closureValue (.list vs) = .ok S → Relation.ReflTransGen N.Round (.start seeds) t →
        (∃ u, N.Round t u) ∨ t.waiting = [] ∧ t.seen = S := by
  refine ⟨exists_closureValue_list_eq_error_iff, fun e => ?_, fun S => closureValue_list_eq_ok_iff,
    N.wellFounded_round, fun seeds S t hvs hS ht => ?_⟩
  · rw [closureValue_list_eq_error_iff]
    refine exists_congr fun before => exists_congr fun v => exists_congr fun after => ?_
    refine and_congr_right fun _ => and_congr_right fun _ => and_congr_right fun _ => ?_
    refine ⟨fun he => ?_, And.left⟩
    subst he
    exact ⟨rfl, Value.category_stateFault, Value.stateFault_of_long⟩
  · obtain ⟨seeds', hvs', -, hclosure⟩ := closureValue_list_eq_ok_iff.mp hS
    have hinj : Function.Injective Value.int := fun _ _ => Value.int.inj
    obtain rfl := hinj.list_map (hvs.symm.trans hvs')
    rw [hclosure.unique (N.isClosureOf_closure seeds)]
    exact exists_round_or_seen_eq ht

/-! ## Two states with empty moves to each other -/

/-- Two states that lead to each other without a symbol. -/
def hinge : Nfa where
  stateCount := 2
  alphabet := ⟨["c"], by decide, by decide, by decide⟩
  transitions := [⟨0, 1, [], List.not_mem_nil⟩, ⟨1, 0, [], List.not_mem_nil⟩]
  start := 1
  accepting := .singleton 1
  start_inRange := by decide
  accepting_inRange := by decide
  transitions_fit t ht := by
    rcases List.mem_pair.mp ht with rfl | rfl <;> exact ⟨by decide, by decide, by decide⟩

/-- From one of them, listed twice, both are reached, by a traversal of three rounds. -/
theorem closureValue_list_hinge :
    hinge.closureValue (.list [.int 0, .int 0]) = .ok (.ofList [0, 1]) ∧
    Relation.ReflTransGen hinge.Round (.start [0, 0]) ⟨[], .ofList [0, 1]⟩ ∧
    ((∃ u, hinge.Round ⟨[], .ofList [0, 1]⟩ u) ∨
      ([] : List State) = [] ∧ StateSet.ofList [0, 1] = .ofList [0, 1]) := by
  have hok : hinge.closureValue (.list [.int 0, .int 0]) = .ok (.ofList [0, 1]) := rfl
  have hfirst : hinge.Round (.start [0, 0]) ⟨[1, 0], .ofList [0, 1]⟩ := .follow (List.Perm.refl _)
  have hother : hinge.Round ⟨[1, 0], .ofList [0, 1]⟩ ⟨[0], .ofList [0, 1]⟩ :=
    .follow (List.Perm.refl _)
  have hlast : hinge.Round ⟨[0], .ofList [0, 1]⟩ ⟨[], .ofList [0, 1]⟩ := .follow (List.Perm.refl _)
  have hrounds : Relation.ReflTransGen hinge.Round (.start [0, 0]) ⟨[], .ofList [0, 1]⟩ :=
    ((Relation.ReflTransGen.single hfirst).tail hother).tail hlast
  obtain ⟨-, -, -, -, htraversal⟩ := closureValue_list hinge [.int 0, .int 0]
  exact ⟨hok, hrounds, htraversal [0, 0] _ _ rfl hok hrounds⟩

/-! ## More states than a complaint can tell -/

/-- States without moves, the number of which is too long to be written. -/
def vast : Nfa := .still (Nat.pow 10 Text.numeralLimit) ⟨["d"], by decide, by decide, by decide⟩

/-- **A complaint that cannot be written**: the integer listed is no state, but what comes of it is
no complaint about the configuration, as that would tell the number of states. -/
theorem closureValue_vast :
    (∃ v ∈ [Value.int (-1)], ¬ v.IsState vast.stateCount) ∧
    vast.closureValue (.list [.int (-1)]) = .error (.unwritable .longInteger) ∧
    ∀ e, vast.closureValue (.list [.int (-1)]) = .error e → e.category ≠ .configuration := by
  have hstate : ¬ (Value.int (-1)).IsState vast.stateCount := by
    rintro ⟨s, hs, hrange⟩
    obtain rfl := Value.int.inj hs
    exact absurd hrange.1 (by decide)
  have hlong : isLongInteger vast.stateCount := isLongInteger_still (Nat.le_refl _)
  have hfault : (Value.int (-1)).stateFault vast.stateCount "epsilon_closure.seed" =
      .unwritable .longInteger := Value.stateFault_of_long ⟨-1, rfl, .inr hlong⟩
  have herror : vast.closureValue (.list [.int (-1)]) = .error (.unwritable .longInteger) :=
    closureValue_list_eq_error_iff.mpr
      ⟨[], .int (-1), [], rfl, List.forall_mem_nil _, hstate, hfault.symm⟩
  refine ⟨⟨_, List.mem_singleton_self _, hstate⟩, herror, fun e he hcategory => ?_⟩
  obtain rfl := Except.error.inj (herror.symm.trans he)
  nomatch hcategory

end Nfa

end FiniteAutomata
