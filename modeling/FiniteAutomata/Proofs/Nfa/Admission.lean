import FiniteAutomata.Proofs.Nfa.Fitting

/-!
# Proofs/Nfa/Admission — which values are let in as states

Values for states are put into sets and made parts of keys before they are looked at, and of values
that are the same a set or a table keeps the first. So a value among the accepting states or the
targets need be no state if an earlier one is the same
(`Value.exists_distinct_eq_map_int_iff`), nor need the state of a key, if earlier entries lead from
the same value to its targets (`MoveTable.leadsFrom_iff`); everything else must be one. Whether an
entry is let in depends on those before it alone (`Given.Admitted`), and a table is let in if each
entry is (`MoveTable.exists_fit_addEntries_iff`). What is not is complained about
(`Nfa.isComplaint_of_ofTable_table_eq_error`). `Nfa.made_iff_admitted` puts this together; the
order in which values are listed matters, as `Nfa.made_of_truthValues` shows.
-/

namespace FiniteAutomata

/-! ## Listed values -/

namespace Value

variable {vs : List Value} {n : Nat}

/-- A set can hold the value. -/
def IsHashable (v : Value) : Prop := v.checkHashable = .ok ()

theorem distinctMembers_list (h : ∀ v ∈ vs, v.IsHashable) :
    (Value.list vs).distinctMembers = .ok (distinct vs) :=
  bind_eq_ok.mpr ⟨vs, rfl, check_bind_eq_ok.mpr ⟨forM_eq_ok_iff.mpr h, rfl⟩⟩

theorem exists_eq_map_int_iff :
    (∃ l : List State, vs = l.map .int ∧ ∀ s ∈ l, InRange n s) ↔ ∀ v ∈ vs, v.IsState n := by
  constructor
  · rintro ⟨l, rfl, hl⟩
    exact List.forall_mem_map.mpr fun s hs => ⟨s, rfl, hl s hs⟩
  · intro h
    obtain ⟨l, rfl⟩ := forall_mem_eq_map.mp fun v hv => (h v hv).imp fun _ => And.left
    refine ⟨l, rfl, fun s hs => ?_⟩
    obtain ⟨_, heq, hrange⟩ := h _ (List.mem_map_of_mem hs)
    exact Value.int.inj heq ▸ hrange

/-- **What a set keeps of listed values are states if each is one unless an earlier one is the
same.** -/
theorem exists_distinct_eq_map_int_iff :
    (∃ l : List State, distinct vs = l.map .int ∧ ∀ s ∈ l, InRange n s) ↔
      EachUnlessRepeated (IsState n) vs :=
  exists_eq_map_int_iff.trans (forall_mem_distinct_iff fun _ ⟨s, hs, _⟩ => ⟨s, hs⟩)

end Value

namespace Nfa

variable {count alphabet transitions start : Value} {vs : List Value}

/-- **Values are let in as accepting states if each is a state unless an earlier one is the
same**; whatever else is known of the automaton does not depend on them. -/
theorem exists_ofValues_list_iff (P : Nat → Alphabet → Prop) (hvs : ∀ v ∈ vs, v.IsHashable) :
    (∃ N, ofValues count alphabet transitions start (.list vs) = .ok N ∧
        P N.stateCount N.alphabet) ↔
      ∃ N, ofValues count alphabet transitions start (.list []) = .ok N ∧
        Value.EachUnlessRepeated (Value.IsState N.stateCount) vs ∧ P N.stateCount N.alphabet := by
  simp only [ofValues_eq_ok, ← Value.exists_distinct_eq_map_int_iff,
    Value.distinctMembers_list hvs, Except.ok.injEq]
  constructor
  · rintro ⟨N, ⟨hcount, hstart, halphabet, htransitions, l, hl, hmem⟩, hP⟩
    let K : Nfa := { N with accepting := ∅, accepting_inRange := nofun }
    refine ⟨K, ⟨hcount, hstart, halphabet, htransitions, [], rfl, ?_⟩, ⟨l, hl, ?_⟩, hP⟩
    · exact fun s => iff_of_false (StateSet.notMem_empty s) List.not_mem_nil
    · exact fun s hs => N.accepting_inRange s ((hmem s).mpr hs)
  · rintro ⟨N, ⟨hcount, hstart, halphabet, htransitions, -⟩, ⟨l, hl, hrange⟩, hP⟩
    let K : Nfa := { N with
      accepting := .ofList l
      accepting_inRange := fun s hs => hrange s (StateSet.mem_ofList.mp hs) }
    exact ⟨K, ⟨hcount, hstart, halphabet, htransitions, l, hl, fun s => StateSet.mem_ofList⟩, hP⟩

end Nfa

/-! ## Targets -/

namespace MoveTable

variable {vs : List Value} {ys : List State} {n : Nat} {A : Alphabet} {y : State} {v : Value}
  {e : Error}

theorem targetsOf_list_eq_ok (hvs : ∀ v ∈ vs, v.IsHashable) : targetsOf (.list vs) = .ok ys ↔
    ∃ l : List State, Value.distinct vs = l.map .int ∧ (StateSet.ofList l).elems = ys := by
  have hints : ∀ l : List State, (Value.distinct vs).mapM (fun t => t.checkInt "trans_table[]") =
      .ok l ↔ Value.distinct vs = l.map .int := fun l =>
    mapM_eq_ok_iff_eq_map fun _ _ => Value.checkInt_eq_ok
  rw [targetsOf, Value.distinctMembers_list hvs]
  refine bind_eq_ok.trans ⟨?_, ?_⟩
  · rintro ⟨_, hdistinct, h⟩
    obtain rfl := Except.ok.inj hdistinct
    obtain ⟨l, hl, hys⟩ := bind_eq_ok.mp h
    exact ⟨l, (hints l).mp hl, Except.ok.inj hys⟩
  · rintro ⟨l, hl, rfl⟩
    exact ⟨_, rfl, bind_eq_ok.mpr ⟨l, (hints l).mpr hl, rfl⟩⟩

/-- **Listed values are let in as targets if each is a state unless an earlier one is the same.** -/
theorem exists_targetsOf_list_iff (hvs : ∀ v ∈ vs, v.IsHashable) :
    (∃ ys, targetsOf (.list vs) = .ok ys ∧ ∀ y ∈ ys, InRange n y) ↔
      Value.EachUnlessRepeated (Value.IsState n) vs := by
  simp only [targetsOf_list_eq_ok hvs, ← Value.exists_distinct_eq_map_int_iff]
  constructor
  · rintro ⟨_, ⟨l, hl, rfl⟩, hrange⟩
    exact ⟨l, hl, fun s hs => hrange s (StateSet.mem_ofList.mpr hs)⟩
  · rintro ⟨l, hl, hrange⟩
    exact ⟨_, ⟨l, hl, rfl⟩, fun y hy => hrange y (StateSet.mem_ofList.mp hy)⟩

/-- The targets are what the listed values are equal to. -/
theorem isSetOf_ofList (h : targetsOf (.list vs) = .ok ys) :
    (StateSet.ofList ys).IsSetOf (.list vs) :=
  isSetOf_of_targetsOf h fun _ => StateSet.mem_ofList

theorem mem_of_targetsOf_list (h : targetsOf (.list vs) = .ok ys) :
    y ∈ ys ↔ ∃ v ∈ vs, v.toInt? = some y := by
  obtain ⟨_, hmembers, hfrom, hto⟩ := isSetOf_ofList h
  obtain rfl := Except.ok.inj hmembers
  rw [← StateSet.mem_ofList]
  constructor
  · intro hy
    obtain ⟨v, hv, hsame⟩ := hto y hy
    exact ⟨v, hv, Value.same_int_right.mp hsame⟩
  · rintro ⟨v, hv, hvy⟩
    obtain ⟨z, hz, hsame⟩ := hfrom v hv
    exact Option.some.inj ((Value.same_int_right.mp hsame).symm.trans hvy) ▸ hz

theorem exists_toInt?_of_targetsOf_list (h : targetsOf (.list vs) = .ok ys) (hv : v ∈ vs) :
    ∃ y ∈ ys, v.toInt? = some y := by
  obtain ⟨_, hmembers, hfrom, -⟩ := isSetOf_ofList h
  obtain rfl := Except.ok.inj hmembers
  obtain ⟨y, hy, hsame⟩ := hfrom v hv
  exact ⟨y, StateSet.mem_ofList.mp hy, Value.same_int_right.mp hsame⟩

/-- Each target is given as an integer. -/
theorem int_mem_of_targetsOf_list (hvs : ∀ v ∈ vs, v.IsHashable)
    (h : targetsOf (.list vs) = .ok ys) (hy : y ∈ ys) : .int y ∈ vs := by
  obtain ⟨l, hl, rfl⟩ := (targetsOf_list_eq_ok hvs).mp h
  refine Value.mem_of_mem_distinct (hl ▸ List.mem_map_of_mem ?_)
  exact StateSet.mem_ofList.mp hy

/-- Values that a set can hold are refused as targets by their kind alone. -/
theorem category_of_targetsOf_list_eq_error (hvs : ∀ v ∈ vs, v.IsHashable)
    (h : targetsOf (.list vs) = .error e) : e.category = .configuration := by
  rw [targetsOf, Value.distinctMembers_list hvs] at h
  obtain h | ⟨_, _, h⟩ := bind_eq_error.mp h
  · exact nomatch h
  obtain h | ⟨_, _, h⟩ := bind_eq_error.mp h
  · obtain ⟨_, _, h⟩ := exists_of_mapM_eq_error h
    exact Value.category_of_checkInt_eq_error h
  · exact nomatch h

end MoveTable

/-! ## Entries -/

/-- **An entry as it is given**: under a value for the state and a symbol, values for the
targets. -/
structure Given where
  source : Value
  symbol : Symbol
  targets : List Value

namespace Given

/-- The entry with its key as a pair. -/
def entry (g : Given) : (Value × Value) × Value := ((g.source, .text g.symbol), .list g.targets)

/-- The table of the entries. -/
def table (gs : List Given) : MoveTable := gs.map fun g => MoveTable.joinEntry g.entry

/-- The entry leads, on a symbol, from the same value to the same value. -/
def Leads (f : Given) (s v : Value) : Prop :=
  f.symbol ≠ epsilonSign ∧ f.source.same s = true ∧ ∃ w ∈ f.targets, w.same v = true

/-- **The entry is let in after those before it**: each target is a state unless an earlier one is
the same; if there are targets, the symbol is one of the alphabet or the sign of the empty move; and
the source is a state, unless earlier entries lead, on symbols, from the same value to all the
targets already. -/
structure Admitted (n : Nat) (A : Alphabet) (before : List Given) (g : Given) : Prop where
  targets : Value.EachUnlessRepeated (Value.IsState n) g.targets
  symbol : g.targets ≠ [] → g.symbol = epsilonSign ∨ g.symbol ∈ A
  source : ∀ v ∈ g.targets, g.source.IsState n ∨
    g.symbol ≠ epsilonSign ∧ ∃ f ∈ before, f.Leads g.source v

end Given

/-! ## Tables of entries -/

namespace MoveTable

variable {n : Nat} {A : Alphabet} {g : Given} {gs : List Given} {s v : Value} {y : State}
  {edges edges' : Edges} {k : Option Int} {b : Symbol}

/-- The steps of the edges are those that the entries list. -/
theorem mem_steps_of_addEntries (h : addEntries ⟨[], []⟩ (gs.map Given.entry) = .ok edges) :
    (k, y, .text b) ∈ edges.steps ↔ ∃ g ∈ gs, g.symbol = b ∧ g.source.toInt? = k ∧
      ∃ w ∈ g.targets, w.toInt? = some y := by
  rw [(steps_addEntries h).mem_iff]
  simp only [List.mem_flatMap, List.mem_map, Edges.steps, mem_entrySteps, List.flatMap_nil,
    List.map_nil, List.append_nil]
  constructor
  · rintro ⟨_, ⟨g, hg, rfl⟩, rfl, hb, ys, hys, hy⟩
    exact ⟨g, hg, (Value.text.inj hb).symm, rfl, (mem_of_targetsOf_list hys).mp hy⟩
  · rintro ⟨g, hg, rfl, rfl, hy⟩
    obtain ⟨ys, hys⟩ := exists_targetsOf_of_addEntries h (List.mem_map_of_mem hg)
    exact ⟨_, ⟨g, hg, rfl⟩, rfl, rfl, ys, hys, (mem_of_targetsOf_list hys).mpr hy⟩

/-- **An edge leads from the same value to a state if an entry does.** -/
theorem leadsFrom_iff (h : addEntries ⟨[], []⟩ (gs.map Given.entry) = .ok edges)
    (hfit : edges.Fit n A) (hv : v.toInt? = some y) :
    LeadsFrom edges.labelled s y ↔ ∃ f ∈ gs, f.Leads s v := by
  have hover := over_of_addEntries h
  have hsource : ∀ e ∈ edges.labelled, ∃ m, e.source.toInt? = some m := fun e he => by
    obtain ⟨m, hm, -⟩ := (hfit e (List.mem_append_left _ he)).source
    exact ⟨m, hm ▸ rfl⟩
  constructor
  · rintro ⟨e, he, hs, rfl⟩
    obtain ⟨w, hw⟩ := List.exists_mem_of_ne_nil _ (hover.labelled e he).inputs_ne
    obtain ⟨b, hb, rfl⟩ := (hfit e (List.mem_append_left _ he)).inputs w hw
    have hne : b ≠ epsilonSign := fun heq => A.epsilon_notMem (heq ▸ hb)
    have hstep := (Edges.mem_steps_text hne).mpr ⟨e, he, rfl, rfl, hw⟩
    obtain ⟨f, hf, rfl, hfs, w, hw, hwy⟩ := (mem_steps_of_addEntries h).mp hstep
    obtain ⟨m, hm⟩ := hsource e he
    refine ⟨f, hf, hne, ?_, w, hw, Value.same_of_toInt? hwy hv⟩
    exact Value.same_of_toInt? (hfs.trans hm) ((Value.toInt?_eq_of_same hs).symm.trans hm)
  · rintro ⟨f, hf, hne, hfs, w, hw, hwv⟩
    have hwy := (Value.toInt?_eq_of_same hwv).trans hv
    have hstep := (mem_steps_of_addEntries h).mpr ⟨f, hf, rfl, rfl, w, hw, hwy⟩
    obtain ⟨e, he, hes, hey, -⟩ := (Edges.mem_steps_text hne).mp hstep
    obtain ⟨m, hm⟩ := hsource e he
    have hs := (Value.toInt?_eq_of_same hfs).symm.trans (hes.symm.trans hm)
    exact ⟨e, he, Value.same_of_toInt? hm hs, hey⟩

theorem addEntries_concat_eq_ok {table : List ((Value × Value) × Value)}
    {e : (Value × Value) × Value} : addEntries edges (table ++ [e]) = .ok edges' ↔
      ∃ mid, addEntries edges table = .ok mid ∧
        ∃ ys, targetsOf e.2 = .ok ys ∧ addEntry mid e.1 ys = edges' := by
  rw [addEntries, List.foldlM_append, bind_eq_ok]
  refine exists_congr fun mid => and_congr_right fun _ => ?_
  rw [← addEntries, addEntries_cons_eq_ok]
  exact exists_congr fun ys => and_congr_right fun _ => ⟨Except.ok.inj, congrArg Except.ok⟩

/-- **One more entry is let in** exactly if its edges fit. -/
theorem exists_fit_addEntry_iff (hg : ∀ v ∈ g.targets, v.IsHashable)
    (h : addEntries ⟨[], []⟩ (gs.map Given.entry) = .ok edges) (hfit : edges.Fit n A) :
    (∃ ys, targetsOf (.list g.targets) = .ok ys ∧ (addEntry edges g.entry.1 ys).Fit n A) ↔
      g.Admitted n A gs := by
  constructor
  · rintro ⟨ys, hys, hfit'⟩
    obtain ⟨-, hadd⟩ := (Edges.fit_addEntry_iff (nodup_of_targetsOf hys)).mp hfit'
    have hrange := (exists_targetsOf_list_iff hg).mp ⟨ys, hys, fun y hy => (hadd y hy).1⟩
    refine ⟨hrange, fun hne => ?_, fun v hv => ?_⟩
    · obtain ⟨v, hv⟩ := List.exists_mem_of_ne_nil _ hne
      obtain ⟨y, hy, -⟩ := exists_toInt?_of_targetsOf_list hys hv
      exact (hadd y hy).2.1
    · obtain ⟨y, hy, hvy⟩ := exists_toInt?_of_targetsOf_list hys hv
      exact (hadd y hy).2.2.imp_right fun ⟨hne, hleads⟩ =>
        ⟨hne, (leadsFrom_iff h hfit hvy).mp hleads⟩
  · rintro ⟨htargets, hsymbol, hsource⟩
    obtain ⟨ys, hys, hrange⟩ := (exists_targetsOf_list_iff hg).mpr htargets
    refine ⟨ys, hys, (Edges.fit_addEntry_iff (nodup_of_targetsOf hys)).mpr ⟨hfit, fun y hy => ?_⟩⟩
    obtain ⟨v, hv, hvy⟩ := (mem_of_targetsOf_list hys).mp hy
    refine ⟨hrange y hy, hsymbol (List.ne_nil_of_mem hv), (hsource v hv).imp_right ?_⟩
    exact fun ⟨hne, hleads⟩ => ⟨hne, (leadsFrom_iff h hfit hvy).mpr hleads⟩

/-- **The edges of a table fit exactly if its entries are let in, one after the other.** -/
theorem exists_fit_addEntries_iff (hgs : ∀ g ∈ gs, ∀ v ∈ g.targets, v.IsHashable) :
    (∃ edges, addEntries ⟨[], []⟩ (gs.map Given.entry) = .ok edges ∧ edges.Fit n A) ↔
      EachAfter (Given.Admitted n A) gs := by
  -- by induction on the entries from their end, where the last meets the edges of the others
  induction gs using List.reverseRecOn with
  | nil => exact iff_of_true ⟨_, rfl, List.forall_mem_nil _⟩ eachAfter_nil
  | append_singleton gs g ih =>
    obtain ⟨hgs, hg⟩ := List.forall_mem_append.mp hgs
    have hg := List.forall_mem_singleton.mp hg
    simp only [eachAfter_concat_iff, ← ih hgs, List.map_append, List.map_cons, List.map_nil,
      addEntries_concat_eq_ok]
    constructor
    · rintro ⟨_, ⟨edges, hedges, ys, hys, rfl⟩, hfit⟩
      have hbefore := ((Edges.fit_addEntry_iff (nodup_of_targetsOf hys)).mp hfit).1
      exact ⟨⟨edges, hedges, hbefore⟩,
        (exists_fit_addEntry_iff hg hedges hbefore).mp ⟨ys, hys, hfit⟩⟩
    · rintro ⟨⟨edges, hedges, hbefore⟩, hadmitted⟩
      obtain ⟨ys, hys, hfit⟩ := (exists_fit_addEntry_iff hg hedges hbefore).mpr hadmitted
      exact ⟨_, ⟨edges, hedges, ys, hys, rfl⟩, hfit⟩

/-! ## Refused tables -/

variable {table : List ((Value × Value) × Value)} {ts : List Transition} {t : Transition}
  {e : Error}

theorem exists_targetsOf_of_addEntries_eq_error (h : addEntries edges table = .error e) :
    ∃ f ∈ table, targetsOf f.2 = .error e := by
  induction table generalizing edges with
  | nil => cases h
  | cons f table ih =>
    rw [addEntries, List.foldlM_cons] at h
    obtain h | ⟨_, _, h⟩ := bind_eq_error.mp h
    · obtain h | ⟨_, _, h⟩ := bind_eq_error.mp h
      · exact ⟨f, List.mem_cons_self, h⟩
      · cases h
    · obtain ⟨g, hg, he⟩ := ih h
      exact ⟨g, List.mem_cons_of_mem _ hg, he⟩

/-- Entries are refused, before they are transitions, for the kind of a part. -/
theorem category_of_transitions_eq_error (hgs : ∀ g ∈ gs, ∀ v ∈ g.targets, v.IsHashable)
    (h : transitions (gs.map Given.entry) = .error e) : e.category = .configuration := by
  change (addEntries ⟨[], []⟩ (gs.map Given.entry) >>= _) = _ at h
  obtain h | ⟨_, _, h⟩ := bind_eq_error.mp h
  · obtain ⟨_, hf, h⟩ := exists_targetsOf_of_addEntries_eq_error h
    obtain ⟨g, hg, rfl⟩ := List.mem_map.mp hf
    exact category_of_targetsOf_list_eq_error (hgs g hg) h
  · obtain ⟨_, _, h⟩ := exists_of_mapM_eq_error h
    exact Transition.category_of_ofValues_eq_error h

/-- The states of a transition are given in some entry, as integers. -/
theorem isLong_of_mem_transitions (hgs : ∀ g ∈ gs, ∀ v ∈ g.targets, v.IsHashable)
    (h : transitions (gs.map Given.entry) = .ok ts) (ht : t ∈ ts) (hlong : t.IsLong) :
    ∃ g ∈ gs, g.source.IsLong ∨ ∃ v ∈ g.targets, v.IsLong := by
  rcases hlong with hlong | hlong
  · obtain ⟨edges, hedges, hts⟩ := transitions_eq_ok.mp h
    have hover : edges.Over (fun v => ∃ g ∈ gs, g.source = v) (fun _ => True) := by
      refine over_nil.addEntries (fun _ hf => ?_) hedges
      obtain ⟨g, hg, rfl⟩ := List.mem_map.mp hf
      exact ⟨⟨g, hg, rfl⟩, trivial⟩
    have hsource : ∃ g ∈ gs, g.source = .int t.source := by
      rcases List.mem_append.mp (hts ▸ List.mem_map_of_mem ht) with he | he
      · exact (hover.labelled _ he).source
      · exact (hover.empty _ he).1
    obtain ⟨g, hg, hsource⟩ := hsource
    exact ⟨g, hg, .inl ⟨t.source, hsource, hlong⟩⟩
  · obtain ⟨b, hb⟩ := exists_reads_ofText t
    obtain ⟨_, hf, -, -, ys, hys, hy⟩ :=
      (exists_mem_transitions_iff h).mp ⟨t, ht, hb, rfl, rfl⟩
    obtain ⟨g, hg, rfl⟩ := List.mem_map.mp hf
    exact ⟨g, hg, .inr ⟨_, int_mem_of_targetsOf_list (hgs g hg) hys hy, t.target, rfl, hlong⟩⟩

end MoveTable

namespace Nfa

variable {count alphabet start accepting : Value} {gs : List Given} {n q : Int}
  {as : List Text} {vs : List Value} {e : Error}

theorem ofTable_table : ofTable count alphabet (Given.table gs) start accepting =
    MoveTable.transitions (gs.map Given.entry) >>= fun ts =>
      ofValues count alphabet (.list (ts.map .transition)) start accepting := by
  have hsplit : Given.table gs = (gs.map Given.entry).map MoveTable.joinEntry := by
    rw [List.map_map]
    rfl
  rw [ofTable, MoveTable.mapM_splitKey_eq_ok.mpr hsplit]
  rfl

/-- **A table is let in exactly if its entries are, one after the other**, and nothing else is
wrong. -/
theorem exists_ofTable_table_iff (hgs : ∀ g ∈ gs, ∀ v ∈ g.targets, v.IsHashable) :
    (∃ N, ofTable count alphabet (Given.table gs) start accepting = .ok N) ↔
      ∃ N, ofValues count alphabet (.list []) start accepting = .ok N ∧
        EachAfter (Given.Admitted N.stateCount N.alphabet) gs := by
  simp only [ofTable_table, bind_eq_ok, ← MoveTable.exists_fit_addEntries_iff hgs,
    MoveTable.transitions_eq_ok]
  constructor
  · rintro ⟨N, ts, ⟨edges, hedges, hts⟩, hN⟩
    obtain rfl := transitions_of_ofValues hN
    obtain ⟨hcount, hstart, halphabet, -, haccepting⟩ := ofValues_eq_ok.mp hN
    let K : Nfa := { N with transitions := [], transitions_fit := nofun }
    refine ⟨K, ofValues_eq_ok.mpr ⟨hcount, hstart, halphabet, rfl, haccepting⟩, edges, hedges,
      fun e he => ?_⟩
    obtain ⟨t, ht, rfl⟩ := List.mem_map.mp (hts ▸ he)
    exact MoveTable.Edge.fits_ofTransition.mpr (N.transitions_fit t ht)
  · rintro ⟨N, hN, edges, hedges, hfit⟩
    obtain ⟨hcount, hstart, halphabet, -, haccepting⟩ := ofValues_eq_ok.mp hN
    obtain ⟨ts, hts⟩ := forall_mem_eq_map.mp fun e he => (hfit e he).exists_eq
    have hfits : ∀ t ∈ ts, t.Fits N.stateCount N.alphabet := fun t ht =>
      MoveTable.Edge.fits_ofTransition.mp (hfit _ (hts ▸ List.mem_map_of_mem ht))
    let K : Nfa := { N with transitions := ts, transitions_fit := hfits }
    refine ⟨K, ts, ⟨edges, hedges, hts⟩, ofValues_eq_ok.mpr ?_⟩
    exact ⟨hcount, hstart, halphabet, rfl, haccepting⟩

theorem isComplaint_of_ofValues_list_eq_error {ts : List Transition}
    (hvs : ∀ v ∈ vs, v.IsHashable)
    (h : ofValues (.int n) (.list (as.map .text)) (.list (ts.map .transition)) (.int q) (.list vs) =
      .error e) :
    e.IsComplaint (isLongInteger n ∨ isLongInteger q ∨ (∃ v ∈ vs, v.IsLong) ∨
      ∃ t ∈ ts, t.IsLong) := by
  refine (isComplaint_of_ofValues_eq_error_of_members (Value.distinctMembers_list hvs) h).mono ?_
  refine Or.imp_right (Or.imp_right (Or.imp_left ?_))
  exact fun ⟨v, hv, hlong⟩ => ⟨v, Value.mem_of_mem_distinct hv, hlong⟩

/-- **A table is refused in words that name integers given in it** or beside it. -/
theorem isComplaint_of_ofTable_table_eq_error (hvs : ∀ v ∈ vs, v.IsHashable)
    (hgs : ∀ g ∈ gs, ∀ v ∈ g.targets, v.IsHashable)
    (h : ofTable (.int n) (.list (as.map .text)) (Given.table gs) (.int q) (.list vs) =
      .error e) :
    e.IsComplaint (isLongInteger n ∨ isLongInteger q ∨ (∃ v ∈ vs, v.IsLong) ∨
      ∃ g ∈ gs, g.source.IsLong ∨ ∃ v ∈ g.targets, v.IsLong) := by
  rw [ofTable_table] at h
  obtain h | ⟨ts, hts, h⟩ := bind_eq_error.mp h
  · exact .inl (MoveTable.category_of_transitions_eq_error hgs h)
  · refine (isComplaint_of_ofValues_list_eq_error hvs h).mono ?_
    refine Or.imp_right (Or.imp_right (Or.imp_right ?_))
    exact fun ⟨t, ht, hlong⟩ => MoveTable.isLong_of_mem_transitions hgs hts ht hlong

/-! ## What makes an automaton -/

/-- **Which values are let in as states.** Transitions make an automaton with values listed as
accepting states exactly if they do with none listed and each value is a state unless an earlier one
is the same. A table of moves makes one exactly if, besides, its entries are let in one after the
other (`Given.Admitted`). Whatever is refused is complained about as a wrong configuration, unless
the complaint would name an integer that is too long to be written. -/
theorem made_iff_admitted {n q : Int} {as : List Text} {vs : List Value}
    (hvs : ∀ v ∈ vs, v.IsHashable) :
    (∀ ts : List Transition,
      ((∃ N, ofValues (.int n) (.list (as.map .text)) (.list (ts.map .transition)) (.int q)
          (.list vs) = .ok N) ↔
        ∃ N, ofValues (.int n) (.list (as.map .text)) (.list (ts.map .transition)) (.int q)
          (.list []) = .ok N ∧ Value.EachUnlessRepeated (Value.IsState N.stateCount) vs) ∧
      ∀ e, ofValues (.int n) (.list (as.map .text)) (.list (ts.map .transition)) (.int q)
          (.list vs) = .error e →
        e.IsComplaint (isLongInteger n ∨ isLongInteger q ∨ (∃ v ∈ vs, v.IsLong) ∨
          ∃ t ∈ ts, t.IsLong)) ∧
    ∀ gs : List Given, (∀ g ∈ gs, ∀ v ∈ g.targets, v.IsHashable) →
      ((∃ N, ofTable (.int n) (.list (as.map .text)) (Given.table gs) (.int q) (.list vs) = .ok N) ↔
        ∃ N, ofValues (.int n) (.list (as.map .text)) (.list []) (.int q) (.list []) = .ok N ∧
          Value.EachUnlessRepeated (Value.IsState N.stateCount) vs ∧
          EachAfter (Given.Admitted N.stateCount N.alphabet) gs) ∧
      ∀ e, ofTable (.int n) (.list (as.map .text)) (Given.table gs) (.int q) (.list vs) =
          .error e →
        e.IsComplaint (isLongInteger n ∨ isLongInteger q ∨ (∃ v ∈ vs, v.IsLong) ∨
          ∃ g ∈ gs, g.source.IsLong ∨ ∃ v ∈ g.targets, v.IsLong) := by
  constructor
  · refine fun ts => ⟨?_, fun e => isComplaint_of_ofValues_list_eq_error hvs⟩
    simpa using exists_ofValues_list_iff (fun _ _ => True) hvs
  · refine fun gs hgs => ⟨?_, fun e => isComplaint_of_ofTable_table_eq_error hvs hgs⟩
    rw [exists_ofTable_table_iff hgs]
    exact exists_ofValues_list_iff (fun n A => EachAfter (Given.Admitted n A) gs) hvs

/-- Entries whose keys name one state by an integer and by a truth value; a target of the first is
listed as both, too. -/
def doubledEntries : List Given :=
  [⟨.int 1, "a", [.int 0, .bool false]⟩, ⟨.bool true, "b", [.int 0]⟩]

theorem made_iff_admitted_doubled :
    (∀ v ∈ [Value.int 1, .bool true], v.IsHashable) ∧
    (∀ g ∈ doubledEntries, ∀ v ∈ g.targets, v.IsHashable) ∧
    ∃ N, ofValues (.int 2) (.list (["a", "b"].map .text)) (.list []) (.int 0) (.list []) = .ok N ∧
      Value.EachUnlessRepeated (Value.IsState N.stateCount) [.int 1, .bool true] ∧
      EachAfter (Given.Admitted N.stateCount N.alphabet) doubledEntries := by
  have hvs : ∀ v ∈ [Value.int 1, .bool true], v.IsHashable :=
    List.forall_mem_cons.mpr ⟨rfl, List.forall_mem_singleton.mpr rfl⟩
  have hgs : ∀ g ∈ doubledEntries, ∀ v ∈ g.targets, v.IsHashable :=
    List.forall_mem_cons.mpr ⟨List.forall_mem_cons.mpr ⟨rfl, List.forall_mem_singleton.mpr rfl⟩,
      List.forall_mem_singleton.mpr (List.forall_mem_singleton.mpr rfl)⟩
  exact ⟨hvs, hgs, ((made_iff_admitted hvs).2 doubledEntries hgs).1.mp ⟨_, rfl⟩⟩

/-- **Truth values are let in beside the integers that they are equal to, and not before them**,
though no truth value is a state: among accepting states, among targets and in keys. -/
theorem made_of_truthValues :
    (∀ b n, ¬ (Value.bool b).IsState n) ∧
    (∃ N, ofTable (.int 2) (.list [.text "a", .text "b"]) (Given.table doubledEntries) (.int 0)
      (.list [.int 1, .bool true]) = .ok N) ∧
    (∃ e, ofTable (.int 2) (.list [.text "a", .text "b"]) (Given.table doubledEntries.reverse)
      (.int 0) (.list []) = .error e ∧ e.category = .configuration) ∧
    (∃ N, ofValues (.int 2) (.list [.text "a"]) (.list []) (.int 0)
      (.list [.int 1, .bool true]) = .ok N) ∧
    ∃ e, ofValues (.int 2) (.list [.text "a"]) (.list []) (.int 0)
      (.list [.bool true, .int 1]) = .error e ∧ e.category = .configuration :=
  ⟨fun _ _ ⟨_, h, _⟩ => (nomatch h), ⟨_, rfl⟩, ⟨_, rfl, rfl⟩, ⟨_, rfl⟩, _, rfl, rfl⟩

end Nfa

end FiniteAutomata
