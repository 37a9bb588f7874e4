import FiniteAutomata.Proofs.Nfa.MoveSets
import FiniteAutomata.Proofs.Nfa.Steps
import Mathlib.Data.List.Pairwise

/-!
# Proofs/Nfa/Regrouping — tables of moves and transitions say the same

No two keys of a table are the same (`MoveTable.isKeyed_of_ofEntries`). Hence of the entries only
one is under the key of a state and a symbol, and what it lists is what the state leads to
(`Nfa.query_of_targetsAt`); and no step is taken by two of them, nor by two transitions
(`MoveTable.nodup_steps`). The other way round, the sets of targets of an automaton are a table
whose transitions lead where those of the automaton do (`Nfa.exists_regrouped`).
`Nfa.query_regrouped` puts this together.
-/

namespace FiniteAutomata

namespace MoveTable

/-! ## Keys -/

section Keys

variable {table : MoveTable} {entries : List (Value × Value)} {key targets : Value}

theorem forall_mem_set {P : Value → Prop} (hkey : P key) (h : ∀ e ∈ table, P e.1) :
    ∀ e ∈ table.set key targets, P e.1 := by
  induction table with
  | nil => exact List.forall_mem_singleton.mpr hkey
  | cons e es ih =>
    obtain ⟨he, hes⟩ := List.forall_mem_cons.mp h
    rw [set]
    split
    · exact List.forall_mem_cons.mpr ⟨he, hes⟩
    · exact List.forall_mem_cons.mpr ⟨he, ih hes⟩

/-- **No two keys are the same.** -/
def IsKeyed (table : MoveTable) : Prop := table.Pairwise fun e f => ¬ e.1.same f.1 = true

theorem IsKeyed.set (h : table.IsKeyed) : (table.set key targets).IsKeyed := by
  induction table with
  | nil => exact List.pairwise_singleton _ _
  | cons e es ih =>
    obtain ⟨he, hes⟩ := List.pairwise_cons.mp h
    rw [MoveTable.set]
    split
    · exact List.pairwise_cons.mpr ⟨he, hes⟩
    · rename_i hkey
      exact List.pairwise_cons.mpr
        ⟨forall_mem_set (P := fun k => ¬ e.1.same k = true) hkey he, ih hes⟩

/-- **A table that is made from entries has distinct keys.** -/
theorem isKeyed_of_ofEntries (h : ofEntries entries = .ok table) : table.IsKeyed := by
  obtain ⟨_, _, h⟩ := bind_eq_ok.mp h
  obtain rfl := Except.ok.inj h
  exact List.foldlRecOn (motive := IsKeyed) _ _ .nil fun _ h _ _ => h.set

end Keys

/-! ## Keys as pairs -/

/-- The entry with its key put together. -/
def joinEntry (e : (Value × Value) × Value) : Value × Value := (.tuple [e.1.1, e.1.2], e.2)

theorem same_joinEntry {e f : (Value × Value) × Value} :
    (joinEntry e).1.same (joinEntry f).1 = true ↔
      e.1.1.same f.1.1 = true ∧ e.1.2.same f.1.2 = true := by
  simp [joinEntry, Value.same, Value.sameAll]

theorem splitKey_eq_ok {key : Value} {p : Value × Value} :
    splitKey key = .ok p ↔ key = .tuple [p.1, p.2] := by
  unfold splitKey
  split
  · simp [Prod.ext_iff, eq_comm]
  · rename_i hno
    exact iff_of_false (fun h => nomatch h) fun h => hno _ _ h

theorem mapM_splitKey_eq_ok {table : MoveTable} {es : List ((Value × Value) × Value)} :
    table.mapM (fun e => do return (← splitKey e.1, e.2)) = .ok es ↔ table = es.map joinEntry := by
  refine mapM_eq_ok_iff_eq_map fun e b => ?_
  simp only [bind_eq_ok, splitKey_eq_ok]
  constructor
  · rintro ⟨p, hp, hb⟩
    obtain rfl := Except.ok.inj hb
    exact Prod.ext hp rfl
  · rintro rfl
    exact ⟨b.1, rfl, rfl⟩

end MoveTable

/-- **An automaton given by a table is made from the transitions of its entries.** -/
theorem Nfa.ofTable_eq_ok {count alphabet start accepting : Value} {table : MoveTable} {N : Nfa} :
    ofTable count alphabet table start accepting = .ok N ↔
      ∃ es, table = es.map MoveTable.joinEntry ∧ MoveTable.transitions es = .ok N.transitions ∧
        ofValues count alphabet (.list (N.transitions.map .transition)) start accepting =
          .ok N := by
  simp only [ofTable, bind_eq_ok, MoveTable.mapM_splitKey_eq_ok]
  refine exists_congr fun es => and_congr_right fun _ => ⟨?_, fun h => ⟨_, h⟩⟩
  rintro ⟨ts, hts, hN⟩
  obtain rfl := transitions_of_ofValues hN
  exact ⟨hts, hN⟩

namespace MoveTable

/-! ## Distinct keys -/

variable {p : Option Int × State × Value} {e f : (Value × Value) × Value} {s : State} {a : Symbol}
  {table : List ((Value × Value) × Value)} {ys : List State} {ts : List Transition}

theorem mem_entrySteps : p ∈ entrySteps e ↔
    p.1 = e.1.1.toInt? ∧ p.2.2 = e.1.2 ∧ ∃ ys, targetsOf e.2 = .ok ys ∧ p.2.1 ∈ ys := by
  obtain ⟨k, y, v⟩ := p
  rw [entrySteps]
  cases targetsOf e.2 with
  | error _ => simp
  | ok ys =>
    simp only [stepsUnder, List.mem_map, Prod.mk.injEq, Except.ok.injEq, exists_eq_left']
    constructor
    · rintro ⟨_, hy, rfl, rfl, rfl⟩
      exact ⟨rfl, rfl, hy⟩
    · rintro ⟨rfl, rfl, hy⟩
      exact ⟨y, hy, rfl, rfl, rfl⟩

theorem nodup_of_targetsOf {v : Value} (h : targetsOf v = .ok ys) : ys.Nodup := by
  obtain ⟨_, _, h⟩ := bind_eq_ok.mp h
  obtain ⟨states, _, h⟩ := bind_eq_ok.mp h
  obtain rfl := Except.ok.inj h
  exact (StateSet.ofList states).ascending.imp fun hlt => Int.ne_of_lt hlt

theorem nodup_entrySteps (e : (Value × Value) × Value) : (entrySteps e).Nodup := by
  rw [entrySteps]
  cases hys : targetsOf e.2 with
  | error _ => exact .nil
  | ok ys =>
    refine (nodup_of_targetsOf hys).map fun y z h => ?_
    exact (Prod.mk.inj (Prod.mk.inj h).2).1

/-- **Entries under distinct keys have no step in common**, if their steps lead from integers on
texts. -/
theorem nodup_flatMap_entrySteps (h : IsKeyed (table.map joinEntry))
    (hsteps : ∀ p ∈ table.flatMap entrySteps, ∃ n b, p.1 = some n ∧ p.2.2 = .text b) :
    (table.flatMap entrySteps).Nodup := by
  refine List.nodup_flatMap.mpr ⟨fun e _ => nodup_entrySteps e, ?_⟩
  refine (List.pairwise_map.mp h).imp_of_mem fun {e f} he _ hkeys p hp hq => hkeys ?_
  obtain ⟨n, b, hn, hb⟩ := hsteps p (List.mem_flatMap.mpr ⟨e, he, hp⟩)
  obtain ⟨hek, hea, -⟩ := mem_entrySteps.mp hp
  obtain ⟨hfk, hfa, -⟩ := mem_entrySteps.mp hq
  rw [same_joinEntry, ← hea, ← hfa, hb]
  exact ⟨Value.same_of_toInt? (hek.symm.trans hn) (hfk.symm.trans hn), Value.same_text.mpr rfl⟩

/-- **The steps of the transitions of a table are distinct** if its keys are. -/
theorem nodup_steps (h : transitions table = .ok ts) (hkeyed : IsKeyed (table.map joinEntry)) :
    (ts.flatMap Transition.steps).Nodup := by
  obtain ⟨ts₁, ts₂, -, -, -, -, hperm⟩ := exists_split_of_transitions h
  refine List.Nodup.of_map _ (hperm.nodup_iff.mpr (nodup_flatMap_entrySteps hkeyed fun p hp => ?_))
  obtain ⟨q, -, rfl⟩ := List.mem_map.mp (hperm.mem_iff.mpr hp)
  exact ⟨_, _, rfl, rfl⟩

/-- **No two transitions with inputs lead between the same states.** -/
theorem nodup_ends (h : transitions table = .ok ts) :
    ((ts.filter fun t => !t.isEpsilon).map fun t => (t.source, t.target)).Nodup := by
  obtain ⟨ts₁, ts₂, rfl, h₁, h₂, hends, -⟩ := exists_split_of_transitions h
  have hfilter : (ts₁ ++ ts₂).filter (fun t => !t.isEpsilon) = ts₁ := by
    rw [List.filter_append, List.filter_eq_self.mpr, List.filter_eq_nil_iff.mpr, List.append_nil]
    · intro t ht
      simp [Transition.isEpsilon, h₂ t ht]
    · intro t ht
      simpa [Transition.isEpsilon] using h₁ t ht
  rw [hfilter]
  exact hends

/-! ## Looking targets up -/

/-- The key of a state and a symbol. -/
def keyOf (s : State) (a : Symbol) : Value := .tuple [.int s, .text a]

/-- **The targets given for a state and a symbol**, if there is an entry under the same key. -/
def targetsAt (table : MoveTable) (s : State) (a : Symbol) : Option Value :=
  (table.find? fun e => e.1.same (keyOf s a)).map (·.2)

theorem same_keyOf : (joinEntry e).1.same (keyOf s a) = true ↔
    e.1.1.toInt? = some s ∧ e.1.2 = .text a := by
  rw [← Value.same_int_right, ← Value.same_text]
  exact same_joinEntry (f := ((.int s, .text a), .null))

theorem targetsAt_eq_none (h : targetsAt (table.map joinEntry) s a = none) :
    ∀ e ∈ table, ¬ (e.1.1.toInt? = some s ∧ e.1.2 = .text a) := by
  intro e he hkey
  have hnone := List.find?_eq_none.mp (Option.map_eq_none_iff.mp h) _ (List.mem_map_of_mem he)
  exact hnone (same_keyOf.mpr hkey)

/-- No two entries are under the key of the same state and symbol. -/
theorem eq_of_same_keyOf (hkeyed : IsKeyed (table.map joinEntry)) (he : e ∈ table) (hf : f ∈ table)
    (hes : e.1.1.toInt? = some s ∧ e.1.2 = .text a)
    (hfs : f.1.1.toInt? = some s ∧ f.1.2 = .text a) : e = f := by
  let Apart (e f : (Value × Value) × Value) : Prop :=
    ¬ ((e.1.1.toInt? = some s ∧ e.1.2 = .text a) ∧ f.1.1.toInt? = some s ∧ f.1.2 = .text a)
  have hsymm : Std.Symm Apart := ⟨fun _ _ h h' => h h'.symm⟩
  have hapart : table.Pairwise Apart := by
    refine (List.pairwise_map.mp hkeyed).imp fun {e f} hkeys h => hkeys ?_
    rw [same_joinEntry, h.1.2, h.2.2]
    exact ⟨Value.same_of_toInt? h.1.1 h.2.1, Value.same_text.mpr rfl⟩
  by_contra hne
  exact hapart.forall he hf hne ⟨hes, hfs⟩

/-- **What is looked up is listed in the one entry under the key.** -/
theorem exists_of_targetsAt_eq_some (hkeyed : IsKeyed (table.map joinEntry)) {targets : Value}
    (h : targetsAt (table.map joinEntry) s a = some targets) : ∃ e ∈ table,
      (e.1.1.toInt? = some s ∧ e.1.2 = .text a) ∧ e.2 = targets ∧
        ∀ f ∈ table, f.1.1.toInt? = some s ∧ f.1.2 = .text a → f = e := by
  obtain ⟨_, hfind, rfl⟩ := Option.map_eq_some_iff.mp h
  obtain ⟨e, he, rfl⟩ := List.mem_map.mp (List.mem_of_find?_eq_some hfind)
  have hkey : (joinEntry e).1.same (keyOf s a) = true := by simpa using List.find?_some hfind
  have hes := same_keyOf.mp hkey
  exact ⟨e, he, hes, rfl, fun f hf hfs => eq_of_same_keyOf hkeyed hf he hfs hes⟩

end MoveTable

/-- **The set and the collection have the same members**, values that are the same not being told
apart. -/
def StateSet.IsSetOf (S : StateSet) (v : Value) : Prop :=
  ∃ vs, v.members = .ok vs ∧ (∀ w ∈ vs, ∃ y ∈ S, w.same (.int y) = true) ∧
    ∀ y ∈ S, ∃ w ∈ vs, w.same (.int y) = true

/-- **The targets of an entry are the members of the collection that it lists.** -/
theorem MoveTable.isSetOf_of_targetsOf {S : StateSet} {v : Value} {ys : List State}
    (h : targetsOf v = .ok ys) (hS : ∀ y, y ∈ S ↔ y ∈ ys) : S.IsSetOf v := by
  obtain ⟨kept, hkept, h⟩ := bind_eq_ok.mp h
  obtain ⟨states, hstates, h⟩ := bind_eq_ok.mp h
  obtain rfl := Except.ok.inj h
  obtain ⟨vs, hvs, hkept⟩ := bind_eq_ok.mp hkept
  obtain ⟨-, hkept⟩ := check_bind_eq_ok.mp hkept
  obtain rfl := Except.ok.inj hkept
  have hmap := (mapM_eq_ok_iff_eq_map fun _ _ => Value.checkInt_eq_ok).mp hstates
  have hmem : ∀ y, y ∈ S ↔ Value.int y ∈ Value.distinct vs := fun y => by
    rw [hS, StateSet.mem_elems, StateSet.mem_ofList, hmap, List.mem_map]
    exact ⟨fun hy => ⟨y, hy, rfl⟩, fun ⟨z, hz, h⟩ => Value.int.inj h ▸ hz⟩
  refine ⟨vs, hvs, fun w hw => ?_, fun y hy => ?_⟩
  · rcases Value.exists_mem_distinct hw with hw | ⟨u, hu, hsame⟩
    · obtain ⟨y, -, rfl⟩ := List.mem_map.mp (hmap ▸ hw)
      exact ⟨y, (hmem y).mpr hw, Value.same_int_right.mpr rfl⟩
    · obtain ⟨y, -, rfl⟩ := List.mem_map.mp (hmap ▸ hu)
      exact ⟨y, (hmem y).mpr hu, Value.same_int_right.mpr (Value.toInt?_eq_of_same hsame).symm⟩
  · exact ⟨.int y, Value.mem_of_mem_distinct ((hmem y).mp hy), Value.same_int_right.mpr rfl⟩

namespace Nfa

/-- **What a state of an automaton given by a table leads to is what the table lists there.** -/
theorem query_of_targetsAt {count alphabet start accepting : Value} {table : MoveTable} {N : Nfa}
    (hkeyed : table.IsKeyed) (hN : ofTable count alphabet table start accepting = .ok N)
    (s : State) (a : Symbol) :
    match table.targetsAt s a with
    | some targets => (N.query s (.ofText a)).IsSetOf targets
    | none => N.query s (.ofText a) = ∅ := by
  obtain ⟨es, rfl, hts⟩ := ofTable_eq_ok.mp hN
  have hquery : ∀ y, y ∈ N.query s (.ofText a) ↔ ∃ e ∈ es, e.1.1.toInt? = some s ∧
      e.1.2 = .text a ∧ ∃ ys, MoveTable.targetsOf e.2 = .ok ys ∧ y ∈ ys := fun y =>
    mem_query.trans (MoveTable.exists_mem_transitions_iff hts.1)
  cases hat : MoveTable.targetsAt (es.map MoveTable.joinEntry) s a with
  | none =>
    have hnone := MoveTable.targetsAt_eq_none hat
    refine StateSet.ext fun y => iff_of_false (fun hy => ?_) (StateSet.notMem_empty y)
    obtain ⟨e, he, hs, ha, -⟩ := (hquery y).mp hy
    exact hnone e he ⟨hs, ha⟩
  | some targets =>
    obtain ⟨e, he, hes, rfl, hone⟩ := MoveTable.exists_of_targetsAt_eq_some hkeyed hat
    obtain ⟨ys, hys⟩ := MoveTable.exists_targetsOf hts.1 he
    refine MoveTable.isSetOf_of_targetsOf hys fun y => (hquery y).trans ⟨?_, fun hy => ?_⟩
    · rintro ⟨f, hf, hfs, hfa, zs, hzs, hy⟩
      obtain rfl := hone f hf ⟨hfs, hfa⟩
      obtain rfl := Except.ok.inj (hzs.symm.trans hys)
      exact hy
    · exact ⟨e, he, hes.1, hes.2, ys, hys, hy⟩

/-! ## Regrouping -/

/-- **The regrouped transitions lead where the listed ones do.** -/
theorem exists_regrouped (M : Nfa) : ∃ ts, M.regrouped = .ok ts ∧ ∀ s a y,
    (∃ t ∈ ts, t.Reads (.ofText a) ∧ t.source = s ∧ t.target = y) ↔ y ∈ M.query s (.ofText a) := by
  let listed : List MoveTable.Listed :=
    (MoveSets.ofTransitions M.transitions).map fun e => (e.1, e.2.elems)
  have hentries : (MoveSets.ofTransitions M.transitions).entries =
      listed.map MoveTable.splitEntry := by
    rw [List.map_map]
    rfl
  obtain ⟨ts, hts⟩ : ∃ ts, MoveTable.transitions (listed.map MoveTable.splitEntry) = .ok ts :=
    MoveTable.exists_transitions_eq_ok
  rw [← hentries] at hts
  refine ⟨ts, hts, fun s a y => ?_⟩
  rw [MoveTable.exists_mem_transitions_iff hts, mem_query, ← MoveSets.leads_ofTransitions_iff]
  constructor
  · rintro ⟨_, he, hs, ha, ys, hys, hy⟩
    obtain ⟨e, hset, rfl⟩ := List.mem_map.mp he
    obtain ⟨zs, hzs, hmem⟩ := MoveTable.exists_targetsOf_list_int e.2.elems
    obtain rfl := Except.ok.inj (hys.symm.trans hzs)
    exact ⟨e, hset, Prod.ext (Option.some.inj hs) (Value.text.inj ha), (hmem y).mp hy⟩
  · rintro ⟨⟨_, S⟩, he, rfl, hy⟩
    obtain ⟨zs, hzs, hmem⟩ := MoveTable.exists_targetsOf_list_int S.elems
    exact ⟨_, List.mem_map_of_mem he, rfl, rfl, zs, hzs, (hmem y).mpr hy⟩

/-- Transitions that lead only where those of an automaton do belong to it. -/
theorem fits_of_query {M : Nfa} {t : Transition}
    (h : ∀ a, t.Reads (.ofText a) → t.target ∈ M.query t.source (.ofText a)) :
    t.Fits M.stateCount M.alphabet := by
  obtain ⟨b, hb⟩ := MoveTable.exists_reads_ofText t
  obtain ⟨hsource, htarget⟩ := inRange_of_mem_query (h b hb)
  refine ⟨hsource, htarget, fun a ha => ?_⟩
  have hne : a ≠ epsilonSign := fun he => t.epsilon_notMem (he ▸ ha)
  exact mem_alphabet_of_mem_query (h a (MoveTable.reads_of_mem_inputs ha)) a (if_neg hne)

/-- **Tables and transitions say the same.** From an automaton given by a table of moves a state
leads on a symbol, or on nothing, to the targets that the table lists there, and nowhere if there is
no such entry; at most one of its transitions with inputs leads between the same two states, and no
step is listed twice. The regrouped transitions of any automaton make an automaton that leads where
that one does. -/
theorem query_regrouped :
    (∀ entries table count alphabet start accepting N, MoveTable.ofEntries entries = .ok table →
      ofTable count alphabet table start accepting = .ok N →
      (∀ s a, match table.targetsAt s a with
        | some targets => (N.query s (.ofText a)).IsSetOf targets
        | none => N.query s (.ofText a) = ∅) ∧
      ((N.transitions.filter fun t => !t.isEpsilon).map fun t => (t.source, t.target)).Nodup ∧
      (N.transitions.flatMap Transition.steps).Nodup) ∧
    ∀ M : Nfa, ∃ ts K, M.regrouped = .ok ts ∧
      ofValues (.int M.stateCount) (.list (M.alphabet.symbols.map .text))
        (.list (ts.map .transition)) (.int M.start) (.list (M.accepting.elems.map .int)) = .ok K ∧
      K.transitions = ts ∧ ∀ s a, K.query s (.ofText a) = M.query s (.ofText a) := by
  constructor
  · intro entries table count alphabet start accepting N htable hN
    have hkeyed := MoveTable.isKeyed_of_ofEntries htable
    refine ⟨query_of_targetsAt hkeyed hN, ?_⟩
    obtain ⟨es, rfl, hts, -⟩ := ofTable_eq_ok.mp hN
    exact ⟨MoveTable.nodup_ends hts, MoveTable.nodup_steps hts hkeyed⟩
  · intro M
    obtain ⟨ts, hts, hleads⟩ := M.exists_regrouped
    have hfit : ∀ t ∈ ts, t.Fits M.stateCount M.alphabet := fun t ht =>
      fits_of_query fun a ha => (hleads _ a _).mp ⟨t, ht, ha, rfl, rfl⟩
    let K : Nfa := { M with transitions := ts, transitions_fit := hfit }
    refine ⟨ts, K, hts, ofValues_eq_ok.mpr ⟨rfl, rfl, rfl, rfl, ?_⟩, rfl, fun s a => ?_⟩
    · obtain ⟨l, hl, hmem⟩ := Value.distinctMembers_int M.accepting.elems
      exact ⟨l, hl, fun s => (hmem s).symm⟩
    · exact StateSet.ext fun y => mem_query.trans (hleads s a y)

/-- Entries whose keys name one state by an integer and by a truth value, with a target listed
twice. -/
def mixedEntries : List (Value × Value) :=
  [(.tuple [.int 1, .text "a"], .list [.int 0, .int 1]),
    (.tuple [.bool true, .text "b"], .list [.int 0, .bool false]),
    (.tuple [.int 0, .text epsilonSign], .list [.int 1])]

theorem query_regrouped_mixed : MoveTable.ofEntries mixedEntries = .ok mixedEntries ∧
    ∃ N, ofTable (.int 2) (.list [.text "a", .text "b"]) mixedEntries (.int 0) (.list []) = .ok N ∧
      (N.query 1 (.ofText "b")).IsSetOf (.list [.int 0, .bool false]) := by
  have htable : MoveTable.ofEntries mixedEntries = .ok mixedEntries := rfl
  obtain ⟨N, hN⟩ : ∃ N, ofTable (.int 2) (.list [.text "a", .text "b"]) mixedEntries (.int 0)
      (.list []) = .ok N := ⟨_, rfl⟩
  exact ⟨htable, N, hN, (query_regrouped.1 _ _ _ _ _ _ N htable hN).1 1 "b"⟩

end Nfa

end FiniteAutomata
