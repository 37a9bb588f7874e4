import FiniteAutomata.Nfa.Assembly
import FiniteAutomata.Proofs.Entry
import FiniteAutomata.Proofs.Outcome
import Mathlib.Data.List.Induction

/-!
# Proofs/Nfa/Assembly — what parts an automaton is put together from

Each maker accepts one form of each part and no other. So what is returned can be read back from the
parts, and the parts from what is returned: an alphabet from the texts of its symbols
(`Alphabet.ofValue_eq_ok`), a transition from two integers and a list of texts
(`Transition.ofValues_eq_ok`), an automaton from its number of states, its symbols, its transitions,
its start state and any list of its accepting states (`Nfa.ofValues_eq_ok`).
-/

namespace FiniteAutomata

variable {field : Text}

namespace Value

/-! ## Kinds -/

theorem checkKind_eq_ok {v : Value} {k : Kind} :
    v.checkKind k field = .ok () ↔ v.isOfKind k = true := by
  unfold checkKind
  split <;> simp_all

theorem isOfKind_int {v : Value} : v.isOfKind .int = true ↔ ∃ n, v = .int n := by
  cases v <;> simp [isOfKind, kind]

theorem isOfKind_text {v : Value} : v.isOfKind .text = true ↔ ∃ s, v = .text s := by
  cases v <;> simp [isOfKind, kind]

theorem isOfKind_list {v : Value} : v.isOfKind .list = true ↔ ∃ vs, v = .list vs := by
  cases v <;> simp [isOfKind, kind]

theorem isOfKind_transition {v : Value} :
    v.isOfKind .transition = true ↔ ∃ t, v = .transition t := by
  cases v <;> simp [isOfKind, kind]

/-- What is checked of a list: that it is not empty, if it must not be, and the kind of each member.
-/
theorem checkArray_list {vs : List Value} {k : Kind} {allowEmpty : Bool} :
    (Value.list vs).checkArray k .list field allowEmpty =
      if allowEmpty = false ∧ vs = [] then .error (.malformed (.emptyField field))
      else vs.forM fun w => w.checkKind k (field ++ "[]") := by
  cases allowEmpty <;> cases vs <;> rfl

/-- **A list passes the check of its kind exactly if all its members do**, and if it has one where
one is needed. -/
theorem checkArray_list_eq_ok {v : Value} {k : Kind} {allowEmpty : Bool} :
    v.checkArray k .list field allowEmpty = .ok () ↔
      ∃ vs, v = .list vs ∧ (allowEmpty = false → vs ≠ []) ∧ ∀ w ∈ vs, w.isOfKind k = true := by
  constructor
  · intro h
    obtain ⟨_, hkind, _⟩ := bind_eq_ok.mp h
    obtain ⟨vs, rfl⟩ := isOfKind_list.mp (checkKind_eq_ok.mp hkind)
    rw [checkArray_list] at h
    split at h
    · exact nomatch h
    · rename_i hne
      refine ⟨vs, rfl, fun ha he => hne ⟨ha, he⟩, fun w hw => ?_⟩
      exact checkKind_eq_ok.mp (forM_eq_ok_iff.mp h w hw)
  · rintro ⟨vs, rfl, hne, hvs⟩
    rw [checkArray_list, if_neg fun h => hne h.1 h.2, forM_eq_ok_iff]
    exact fun w hw => checkKind_eq_ok.mpr (hvs w hw)

/-! ## Scalars -/

theorem checkInt_eq_ok {v : Value} {n : Int} : v.checkInt field = .ok n ↔ v = .int n := by
  cases v <;> simp [checkInt]

theorem checkText_eq_ok {v : Value} {s : Text} : v.checkText field = .ok s ↔ v = .text s := by
  cases v <;> simp [checkText]

theorem checkState_eq_ok {v : Value} {n : Int} {p : { s : State // 0 ≤ s ∧ s < n }} :
    v.checkState n field = .ok p ↔ v = .int p.1 := by
  rw [checkState, bind_eq_ok]
  constructor
  · rintro ⟨s, hs, h⟩
    split at h
    · exact Except.ok.inj h ▸ checkInt_eq_ok.mp hs
    · exact nomatch h
  · rintro rfl
    exact ⟨p.1, rfl, dif_pos p.2⟩

/-- **States that are in range are taken from a list one by one.** -/
theorem exists_mapM_checkState (field : Text) {n : Int} {l : List Int}
    (h : ∀ s ∈ l, 0 ≤ s ∧ s < n) :
    ∃ m, (l.map Value.int).mapM (fun v => v.checkState n field) = .ok m ∧ m.map (·.1) = l :=
  ⟨l.attachWith _ h, (mapM_eq_ok_iff_eq_map fun _ _ => checkState_eq_ok).mpr (by simp), by simp⟩

theorem same_text {v : Value} {s : Text} : v.same (.text s) = true ↔ v = .text s := by
  cases v <;> simp [same, toInt?, toFraction?]

/-! ## Sets of integers -/

theorem same_int_iff {m n : Int} : (Value.int m).same (.int n) = true ↔ m = n := by
  simp [same, toInt?]

/-- **The distinct ones of some integers** are the same integers. -/
theorem distinct_int (l : List Int) :
    ∃ m : List Int, distinct (l.map .int) = m.map .int ∧ ∀ s, s ∈ m ↔ s ∈ l := by
  -- by induction on the list from its end, where the next value meets those that were kept
  induction l using List.reverseRecOn with
  | nil => exact ⟨[], rfl, fun _ => Iff.rfl⟩
  | append_singleton l n ih =>
    obtain ⟨m, hm, hmem⟩ := ih
    have hstep : distinct ((l ++ [n]).map .int) =
        if (m.map Value.int).any (same · (.int n)) then m.map .int else m.map .int ++ [.int n] := by
      rw [← hm, List.map_append]
      exact List.foldl_append
    have hany : (m.map Value.int).any (same · (.int n)) = true ↔ n ∈ m := by
      simp [same_int_iff]
    by_cases hn : n ∈ m
    · refine ⟨m, by rw [hstep, if_pos (hany.mpr hn)], fun s => ?_⟩
      rw [hmem, List.mem_append, List.mem_singleton]
      exact ⟨.inl, fun h => h.elim id fun he => he ▸ (hmem n).mp hn⟩
    · refine ⟨m ++ [n], by rw [hstep, if_neg (hany.not.mpr hn), List.map_append]; rfl, fun s => ?_⟩
      rw [List.mem_append, List.mem_append, hmem]

theorem distinctMembers_int (l : List Int) : ∃ m : List Int,
    (Value.list (l.map .int)).distinctMembers = .ok (m.map .int) ∧ ∀ s, s ∈ m ↔ s ∈ l := by
  obtain ⟨m, hm, hmem⟩ := distinct_int l
  refine ⟨m, ?_, hmem⟩
  have hhash : (l.map Value.int).forM checkHashable = .ok () := by
    refine forM_eq_ok_iff.mpr fun v hv => ?_
    obtain ⟨n, _, rfl⟩ := List.mem_map.mp hv
    rfl
  exact bind_eq_ok.mpr ⟨_, rfl, bind_eq_ok.mpr ⟨(), hhash, congrArg _ hm⟩⟩

end Value

/-! ## Alphabets -/

theorem Alphabet.ofSymbols_eq_ok {symbols : List Symbol} {A : Alphabet} :
    ofSymbols symbols = .ok A ↔ symbols = A.symbols := by
  constructor
  · intro h
    unfold ofSymbols at h
    split at h
    · exact nomatch h
    · split at h
      · exact nomatch h
      · split at h
        · exact Except.ok.inj h ▸ rfl
        · exact nomatch h
  · rintro rfl
    simp only [ofSymbols, dif_neg A.epsilon_notMem, dif_neg A.empty_notMem, dif_pos A.nodup]

theorem Alphabet.checkSymbol_eq_ok {requested : List Value} {v : Value} {a : Symbol} :
    checkSymbol requested v = .ok a ↔ v = .text a ∧ a ≠ epsilonSign ∧ a ≠ "" := by
  rw [checkSymbol, bind_eq_ok]
  constructor
  · rintro ⟨b, hb, h⟩
    split at h
    · exact nomatch h
    · rename_i hne
      obtain rfl := Except.ok.inj h
      exact ⟨Value.checkText_eq_ok.mp hb, not_or.mp hne⟩
  · rintro ⟨rfl, hne⟩
    exact ⟨a, rfl, if_neg (not_or.mpr hne)⟩

/-- **An alphabet is made from the texts of its symbols alone.** -/
theorem Alphabet.ofValue_eq_ok {v : Value} {A : Alphabet} :
    ofValue v = .ok A ↔ v.members = .ok (A.symbols.map .text) := by
  rw [ofValue, bind_eq_ok]
  simp only [bind_eq_ok, ofSymbols_eq_ok, mapM_eq_ok_iff_eq_map_and fun _ _ => checkSymbol_eq_ok]
  constructor
  · rintro ⟨_, hv, _, ⟨rfl, _⟩, rfl⟩
    exact hv
  · refine fun hv => ⟨_, hv, A.symbols, ⟨rfl, fun a ha => ⟨?_, ?_⟩⟩, rfl⟩
    · exact fun he => A.epsilon_notMem (he ▸ ha)
    · exact fun he => A.empty_notMem (he ▸ ha)

/-! ## Transitions -/

theorem Transition.ofInputs_eq_ok {source target : State} {inputs : List Symbol} {t : Transition} :
    ofInputs source target inputs = .ok t ↔ source = t.source ∧ target = t.target ∧
      (inputs = [epsilonSign] ∧ t.inputs = [] ∨ inputs = t.inputs) := by
  unfold ofInputs
  constructor
  · intro h
    split at h
    · rename_i heps
      obtain rfl := Except.ok.inj h
      exact ⟨rfl, rfl, .inl ⟨heps, rfl⟩⟩
    · split at h
      · exact nomatch h
      · obtain rfl := Except.ok.inj h
        exact ⟨rfl, rfl, .inr rfl⟩
  · obtain ⟨s, t, as, has⟩ := t
    rintro ⟨rfl, rfl, ⟨rfl, rfl⟩ | rfl⟩
    · exact if_pos rfl
    · have hne : inputs ≠ [epsilonSign] := fun he => has (he ▸ List.mem_singleton_self _)
      rw [if_neg hne, dif_neg has]

/-- **A transition is made from two integers and a list of texts**, its inputs or the sign of the
empty move alone. -/
theorem Transition.ofValues_eq_ok {source target inputs : Value} {t : Transition} :
    ofValues source target inputs = .ok t ↔
      source = .int t.source ∧ target = .int t.target ∧
        ∃ as : List Text, inputs = .list (as.map .text) ∧
          (as = [epsilonSign] ∧ t.inputs = [] ∨ as = t.inputs) := by
  have htexts : ∀ as : List Value, ∀ bs : List Text,
      as.mapM (fun v => v.checkText "Transition.inputs[]") = .ok bs ↔ as = bs.map .text :=
    fun _ _ => mapM_eq_ok_iff_eq_map fun _ _ => Value.checkText_eq_ok
  simp only [ofValues, bind_eq_ok, Value.checkInt_eq_ok, htexts, ofInputs_eq_ok]
  constructor
  · rintro ⟨_, rfl, _, rfl, _, harray, _, hmem, as, rfl, rfl, rfl, has⟩
    obtain ⟨vs, rfl, _⟩ := Value.checkArray_list_eq_ok.mp harray
    obtain rfl := Except.ok.inj hmem
    exact ⟨rfl, rfl, as, rfl, has⟩
  · rintro ⟨rfl, rfl, as, rfl, has⟩
    refine ⟨_, rfl, _, rfl, (), Value.checkArray_list_eq_ok.mpr ⟨_, rfl, by simp, ?_⟩, _, rfl, as,
      rfl, rfl, rfl, has⟩
    exact fun w hw => Value.isOfKind_text.mpr (forall_mem_eq_map.mpr ⟨as, rfl⟩ w hw)

theorem Transition.fit_eq_ok {n : Nat} {A : Alphabet} {t : Transition}
    {p : { t : Transition // t.Fits n A }} : t.fit n A = .ok p ↔ t = p.1 := by
  have hfit : ∀ hs : t.Fits n A, t.fit n A = .ok ⟨t, hs⟩ := by
    intro hs
    have hnone : (t.inputs.find? fun a => decide (a ∉ A)) = none := by
      simpa using hs.inputs_mem
    unfold fit
    rw [dif_pos hs.source_inRange, dif_pos hs.target_inRange]
    split
    · rfl
    · rename_i a ha
      exact nomatch hnone.symm.trans ha
  constructor
  · intro h
    unfold fit at h
    split at h
    · split at h
      · split at h
        · exact Except.ok.inj h ▸ rfl
        · exact nomatch h
      · exact nomatch h
    · exact nomatch h
  · rintro rfl
    exact hfit p.2

theorem Transition.ofMember_eq_ok {n : Nat} {A : Alphabet} {v : Value}
    {p : { t : Transition // t.Fits n A }} : ofMember n A v = .ok p ↔ v = .transition p.1 := by
  cases v <;> simp [ofMember, fit_eq_ok]

/-! ## Automata -/

theorem Nfa.checkCount_eq_ok {v : Value} {n : Nat} :
    checkCount v = .ok n ↔ v = .int n ∧ 0 < n := by
  rw [checkCount, bind_eq_ok]
  simp only [Value.checkInt_eq_ok]
  constructor
  · rintro ⟨k, rfl, h⟩
    split at h
    · exact nomatch h
    · rename_i hk
      obtain rfl := Except.ok.inj h
      rw [Int.toNat_of_nonneg (by omega)]
      exact ⟨rfl, by omega⟩
  · rintro ⟨rfl, hn⟩
    refine ⟨n, rfl, ?_⟩
    rw [if_neg (by omega)]
    rfl

/-- Automata with the same parts are equal. -/
theorem Nfa.ext {N M : Nfa} (hcount : N.stateCount = M.stateCount)
    (halphabet : N.alphabet = M.alphabet) (htransitions : N.transitions = M.transitions)
    (hstart : N.start = M.start) (haccepting : N.accepting = M.accepting) : N = M := by
  cases N
  cases M
  simp_all

/-- **An automaton is made from its number of states, its symbols, its transitions, its start state
and a collection of its accepting states**, in whatever order and however often those are given. -/
theorem Nfa.ofValues_eq_ok {count alphabet transitions start accepting : Value} {N : Nfa} :
    ofValues count alphabet transitions start accepting = .ok N ↔
      count = .int N.stateCount ∧ start = .int N.start ∧
        alphabet.members = .ok (N.alphabet.symbols.map .text) ∧
        transitions.members = .ok (N.transitions.map .transition) ∧
        ∃ l : List Int, accepting.distinctMembers = .ok (l.map .int) ∧
          ∀ s, s ∈ N.accepting ↔ s ∈ l := by
  simp only [ofValues, bind_eq_ok, checkCount_eq_ok, Alphabet.ofValue_eq_ok,
    mapM_eq_ok_iff_eq_map fun _ _ => Transition.ofMember_eq_ok,
    mapM_eq_ok_iff_eq_map fun _ _ => Value.checkState_eq_ok]
  constructor
  · rintro ⟨A, hA, _, hts, _, hF, n, ⟨rfl, _⟩, q, hq, F, rfl, ts, rfl, h⟩
    obtain rfl := Except.ok.inj h
    refine ⟨rfl, Value.checkState_eq_ok.mp hq, hA, ?_, F.map (·.1), ?_,
      fun _ => StateSet.mem_ofList⟩
    · rw [hts, List.map_map]
      rfl
    · rw [hF, List.map_map]
      rfl
  · rintro ⟨rfl, rfl, hA, hts, l, hF, hmem⟩
    have hl : ∀ s ∈ l, 0 ≤ s ∧ s < N.stateCount := fun s hs =>
      N.accepting_inRange s ((hmem s).mpr hs)
    have hpos : 0 < N.stateCount :=
      Int.natCast_pos.mp (Int.lt_of_le_of_lt N.start_inRange.1 N.start_inRange.2)
    refine ⟨N.alphabet, hA, _, hts, _, hF, N.stateCount, ⟨rfl, hpos⟩, ⟨N.start, N.start_inRange⟩,
      Value.checkState_eq_ok.mpr rfl, l.attachWith _ hl, by simp,
      N.transitions.attachWith _ N.transitions_fit, by simp, ?_⟩
    have hset : StateSet.ofList ((l.attachWith _ hl).map (·.1)) = N.accepting :=
      StateSet.ext fun s => by simp [hmem s]
    exact congrArg Except.ok (ext rfl rfl (by simp) rfl hset)

/-- The transitions of an automaton are those that it is made from. -/
theorem Nfa.transitions_of_ofValues {count alphabet start accepting : Value}
    {ts : List Transition} {N : Nfa}
    (h : ofValues count alphabet (.list (ts.map .transition)) start accepting = .ok N) :
    ts = N.transitions := by
  obtain ⟨-, -, -, hmembers, -⟩ := ofValues_eq_ok.mp h
  exact List.map_injective_iff.mpr (fun _ _ => Value.transition.inj) (Except.ok.inj hmembers)

/-- States without moves, of which the first is the start and accepts. -/
def Nfa.still (others : Nat) (A : Alphabet) : Nfa where
  stateCount := others + 1
  alphabet := A
  transitions := []
  start := 0
  accepting := .singleton 0
  start_inRange := ⟨le_rfl, Int.natCast_pos.mpr others.succ_pos⟩
  accepting_inRange _ hs :=
    StateSet.mem_singleton.mp hs ▸ ⟨le_rfl, Int.natCast_pos.mpr others.succ_pos⟩
  transitions_fit _ ht := absurd ht List.not_mem_nil

theorem Nfa.isLongInteger_still {n : Nat} {A : Alphabet} (h : Nat.pow 10 Text.numeralLimit ≤ n) :
    isLongInteger (still n A).stateCount := by
  have hcount : (still n A).stateCount = n + 1 := rfl
  rw [isLongInteger, decide_eq_true_iff, Int.natAbs_natCast, hcount]
  exact h.trans (Nat.le_succ n)

end FiniteAutomata
