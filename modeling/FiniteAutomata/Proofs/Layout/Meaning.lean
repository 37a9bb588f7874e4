import FiniteAutomata.Proofs.Layout.Checking
import FiniteAutomata.Proofs.Layout.Whole
import FiniteAutomata.Proofs.Nfa.Query

/-!
# Proofs/Layout/Meaning — which texts describe an automaton, and which automaton

A text describes an automaton exactly if it spells a description whose numerals are short enough to
be read and whose parts agree with each other (`Description.Coherent`). What the description says is
then what the automaton does on each state and label (`Description.Describes`).
-/

namespace FiniteAutomata

namespace Layout

/-! ## Descriptions that make sense -/

namespace Description

variable (d : Description)

/-- The numerals that stand for states. -/
def states : List Digits := d.initial :: (d.accepting ++ d.rows.flatMap fun r => r.2.flatten)

/-- The labels of the sets in a row: the symbols, and last the empty move. -/
def columns : List Label := d.symbols.map .symbol ++ [.epsilon]

/-- **The parts of the description agree with each other.** -/
structure Coherent : Prop where
  declared_eq : value d.declared = d.rows.length
  label_eq : ∀ (i : Nat) r, d.rows[i]? = some r → value r.1 = i
  sets_length : ∀ r ∈ d.rows, r.2.length = d.symbols.length + 1
  symbols_nodup : d.symbols.Nodup
  symbols_ne : ∀ a ∈ d.symbols, a ≠ "lambda" ∧ a ≠ "ε"
  states_lt : ∀ ds ∈ d.states, value ds < d.rows.length

/-- The states that numerals stand for. -/
def stateSet (ns : List Digits) : StateSet := .ofList (ns.map fun ds => (value ds : State))

/-- **The automaton is the one that is described**: each set in a row is what its state leads to on
the label of its column. -/
structure Describes (N : Nfa) : Prop where
  stateCount_eq : N.stateCount = value d.declared
  symbols_eq : N.alphabet.symbols = d.symbols
  start_eq : N.start = value d.initial
  accepting_eq : N.accepting = stateSet d.accepting
  query_eq : ∀ (i : Nat) r, d.rows[i]? = some r →
    List.Forall₂ (fun l ns => N.query i l = stateSet ns) d.columns r.2

end Description

/-! ## Moves -/

variable {d : Description} {k y : State} {b : Symbol}

theorem mem_stateSet {ns : List Digits} :
    y ∈ Description.stateSet ns ↔ y ∈ (ns.map value).map fun (n : Nat) => (n : State) := by
  rw [Description.stateSet, StateSet.mem_ofList, List.map_map]
  rfl

theorem exists_mem_rowMoves_iff {i : Nat} {columns : List Symbol} {sets : List (List Digits)} :
    (∃ ys, ((k, b), ys) ∈ rowMoves i columns (sets.map (·.map value)) ∧ y ∈ ys) ↔
      k = i ∧ ∃ ns, (b, ns) ∈ columns.zip sets ∧ y ∈ Description.stateSet ns := by
  simp only [rowMoves, List.zip_map_right, List.filterMap_map, List.mem_filterMap, mem_stateSet]
  constructor
  · rintro ⟨ys, ⟨⟨b', ns⟩, hmem, h⟩, hy⟩
    dsimp only [Function.comp_apply, Prod.map_apply, id_eq] at h
    split at h
    · cases h
    · obtain ⟨hkey, rfl⟩ := Prod.mk.inj (Option.some.inj h)
      obtain ⟨rfl, rfl⟩ := Prod.mk.inj hkey
      exact ⟨rfl, ns, hmem, hy⟩
  · rintro ⟨rfl, ns, hmem, hy⟩
    refine ⟨_, ⟨(b, ns), hmem, ?_⟩, hy⟩
    dsimp only [Function.comp_apply, Prod.map_apply, id_eq]
    rw [if_neg]
    intro hempty
    rw [List.isEmpty_iff.mp hempty] at hy
    exact absurd hy List.not_mem_nil

/-- What the description says of the state of a row: on the name of a column it leads to the states
in the set that stands there. -/
def Description.Leads (d : Description) (k : State) (b : Symbol) (y : State) : Prop :=
  ∃ (i : Nat) (r : Digits × List (List Digits)), d.rows[i]? = some r ∧ k = i ∧
    ∃ ns, (b, ns) ∈ (d.symbols ++ [epsilonSign]).zip r.2 ∧ y ∈ stateSet ns

/-- **The moves of a description lead where it says.** -/
theorem exists_mem_moves_iff : (∃ ys, ((k, b), ys) ∈ d.moves ∧ y ∈ ys) ↔ d.Leads k b y := by
  simp only [Description.moves, List.mem_flatMap, Description.Leads]
  constructor
  · rintro ⟨ys, ⟨p, hp, hmem⟩, hy⟩
    exact ⟨p.2, p.1, List.mem_zipIdx_iff_getElem?.mp hp, exists_mem_rowMoves_iff.mp ⟨ys, hmem, hy⟩⟩
  · rintro ⟨i, r, hr, h⟩
    obtain ⟨ys, hmem, hy⟩ := exists_mem_rowMoves_iff.mpr h
    exact ⟨ys, ⟨(r, i), List.mem_zipIdx_iff_getElem?.mpr hr, hmem⟩, hy⟩

theorem rowMoves_key_eq {i : Nat} {p : Symbol × List Nat} {κ : State × Symbol}
    (h : ((if p.2.isEmpty then none else
      some (((i : State), p.1), p.2.map fun (n : Nat) => (n : State)) : Option MoveTable.Listed).map
        (·.1)) = some κ) : κ = ((i : State), p.1) := by
  split at h
  · exact nomatch h
  · exact (Option.some.inj h).symm

/-- The moves of one row have distinct keys, all with the state of that row. -/
theorem nodup_rowMoves {i : Nat} {columns : List Symbol} {sets : List (List Nat)}
    (hcolumns : columns.Nodup) (hlength : columns.length ≤ sets.length) :
    ((rowMoves i columns sets).map (·.1)).Nodup ∧
      ∀ κ ∈ (rowMoves i columns sets).map (·.1), κ.1 = (i : State) := by
  have hzip : ((columns.zip sets).map (·.1)).Nodup := by
    rw [List.map_fst_zip hlength]
    exact hcolumns
  rw [rowMoves, List.map_filterMap]
  refine ⟨(List.pairwise_map.mp hzip).filterMap _ ?_, fun κ hκ => ?_⟩
  · intro p p' hne κ hκ κ' hκ' heq
    rw [rowMoves_key_eq hκ, rowMoves_key_eq hκ'] at heq
    exact hne (Prod.mk.inj heq).2
  · obtain ⟨p, _, h⟩ := List.mem_filterMap.mp hκ
    rw [rowMoves_key_eq h]

theorem nodup_moves (hcolumns : (d.symbols ++ [epsilonSign]).Nodup)
    (hrows : ∀ r ∈ d.rows, r.2.length = d.symbols.length + 1) : (d.moves.map (·.1)).Nodup := by
  have hplaces : d.rows.zipIdx.Pairwise fun p p' => p.2 ≠ p'.2 := by
    have h : (d.rows.zipIdx.map (·.2)).Nodup := by
      rw [List.zipIdx_map_snd]
      exact List.nodup_range'
    exact List.pairwise_map.mp h
  have hrow : ∀ p ∈ d.rows.zipIdx, (d.symbols ++ [epsilonSign]).length ≤
      (p.1.2.map (·.map value)).length := by
    intro p hp
    rw [List.length_map, hrows p.1 (List.fst_mem_of_mem_zipIdx hp), List.length_append]
    rfl
  rw [Description.moves, List.map_flatMap, List.nodup_flatMap]
  refine ⟨fun p hp => (nodup_rowMoves hcolumns (hrow p hp)).1, ?_⟩
  refine hplaces.imp_of_mem fun {p p'} hp hp' hne κ hκ hκ' => hne (Int.ofNat.inj ?_)
  exact ((nodup_rowMoves hcolumns (hrow p hp)).2 κ hκ).symm.trans
    ((nodup_rowMoves hcolumns (hrow p' hp')).2 κ hκ')

/-! ## Columns -/

theorem Description.columns_eq (h : epsilonSign ∉ d.symbols) :
    d.columns = (d.symbols ++ [epsilonSign]).map Label.ofText := by
  rw [columns, List.map_append]
  refine congrArg (· ++ [Label.epsilon]) (List.map_congr_left fun a ha => ?_)
  have hne : a ≠ epsilonSign := fun he => h (he ▸ ha)
  exact (if_neg hne).symm

/-- A column of a row holds one set. -/
theorem set_unique {columns : List Symbol} (hcolumns : columns.Nodup) {sets : List (List Digits)}
    {ns ns' : List Digits} (h : (b, ns) ∈ columns.zip sets) (h' : (b, ns') ∈ columns.zip sets) :
    ns = ns' := by
  obtain ⟨j, hj⟩ := List.mem_iff_getElem?.mp h
  obtain ⟨j', hj'⟩ := List.mem_iff_getElem?.mp h'
  obtain ⟨hb, hns⟩ := List.getElem?_zip_eq_some.mp hj
  obtain ⟨hb', hns'⟩ := List.getElem?_zip_eq_some.mp hj'
  have hlt := (List.getElem?_eq_some_iff.mp hb).1
  obtain rfl := (List.getElem?_inj hlt hcolumns).mp (hb.trans hb'.symm)
  exact Option.some.inj (hns.symm.trans hns')

/-! ## The automaton -/

/-- The table of a description makes an automaton from its moves. -/
theorem exists_transitions (hcolumns : (d.symbols ++ [epsilonSign]).Nodup)
    (hrows : ∀ r ∈ d.rows, r.2.length = d.symbols.length + 1) : ∃ ts : List Transition,
      (∀ count alphabet start accepting,
        (MoveTable.ofEntries (d.moves.map MoveTable.entry) >>= fun table =>
          Nfa.ofTable count alphabet table start accepting) =
        Nfa.ofValues count alphabet (.list (ts.map .transition)) start accepting) ∧
      ∀ k b y, (∃ t ∈ ts, t.Reads (.ofText b) ∧ t.source = k ∧ t.target = y) ↔ d.Leads k b y := by
  obtain ⟨ts, hts, hmoves⟩ := Nfa.exists_ofTable_eq (nodup_moves hcolumns hrows)
  exact ⟨ts, hts, fun k b y => (hmoves k b y).trans exists_mem_moves_iff⟩

variable {l : Layout} {text : Text} {N : Nfa}

theorem nodup_columns (hd : d.symbols.Nodup) (hne : epsilonSign ∉ d.symbols) :
    (d.symbols ++ [epsilonSign]).Nodup :=
  List.nodup_append.mpr ⟨hd, List.nodup_singleton _, fun _ ha _ hb he =>
    hne (List.mem_singleton.mp hb ▸ he ▸ ha)⟩

theorem symbols_of_ofTable {count start accepting : Value} {table : MoveTable}
    (h : Nfa.ofTable count (.list (d.symbols.map .text)) table start accepting = .ok N) :
    N.alphabet.symbols = d.symbols := by
  obtain ⟨_, _, h⟩ := bind_eq_ok.mp h
  obtain ⟨_, _, h⟩ := bind_eq_ok.mp h
  obtain ⟨_, _, h, _⟩ := Nfa.ofValues_eq_ok.mp h
  exact (List.map_injective_iff.mpr (fun _ _ => Value.text.inj) (Except.ok.inj h)).symm

theorem query_eq_stateSet (hcolumns : (d.symbols ++ [epsilonSign]).Nodup)
    (hleads : ∀ k b y, (∃ t ∈ N.transitions, t.Reads (.ofText b) ∧ t.source = k ∧ t.target = y) ↔
      d.Leads k b y) {i : Nat} {r : Digits × List (List Digits)} (hr : d.rows[i]? = some r)
    {ns : List Digits} (hns : (b, ns) ∈ (d.symbols ++ [epsilonSign]).zip r.2) :
    N.query i (.ofText b) = Description.stateSet ns := by
  refine StateSet.ext fun y => ?_
  rw [Nfa.mem_query, hleads]
  constructor
  · rintro ⟨i', r', hr', hi, ns', hns', hy⟩
    obtain rfl := Int.ofNat.inj hi
    obtain rfl := Option.some.inj (hr.symm.trans hr')
    rwa [set_unique hcolumns hns hns']
  · exact fun hy => ⟨i, r, hr, rfl, ns, hns, hy⟩

theorem accepting_eq_stateSet {F : List Int}
    (hF : (Value.list (d.accepting.map fun ds => .int (value ds))).distinctMembers =
      .ok (F.map .int)) (hmem : ∀ s, s ∈ N.accepting ↔ s ∈ F) :
    N.accepting = Description.stateSet d.accepting := by
  obtain ⟨m, hm, hmem'⟩ := Value.distinctMembers_int (d.accepting.map fun ds => (value ds : Int))
  rw [List.map_map] at hm
  obtain rfl := List.map_injective_iff.mpr (fun _ _ => Value.int.inj)
    (Except.ok.inj (hF.symm.trans hm))
  refine StateSet.ext fun s => ?_
  rw [hmem, hmem', Description.stateSet, StateSet.mem_ofList]

/-- Where each row has as many sets as there are columns, every set has a column. -/
theorem exists_column {r : Digits × List (List Digits)} (hr : r.2.length = d.symbols.length + 1)
    {ns : List Digits} (hns : ns ∈ r.2) : ∃ b, (b, ns) ∈ (d.symbols ++ [epsilonSign]).zip r.2 := by
  have hsnd : ((d.symbols ++ [epsilonSign]).zip r.2).map (·.2) = r.2 :=
    List.map_snd_zip (by rw [hr, List.length_append]; exact Nat.le_refl _)
  obtain ⟨⟨b, ns⟩, hmem, rfl⟩ := List.mem_map.mp (hsnd ▸ hns)
  exact ⟨b, hmem⟩

theorem states_lt_of_describes {n : Nat} (hlength : ∀ r ∈ d.rows, r.2.length = d.symbols.length + 1)
    (hcount : N.stateCount = n) (hstart : N.start = value d.initial)
    (haccepting : N.accepting = Description.stateSet d.accepting)
    (hquery : ∀ (i : Nat) r, d.rows[i]? = some r → ∀ b ns,
      (b, ns) ∈ (d.symbols ++ [epsilonSign]).zip r.2 →
        N.query i (.ofText b) = Description.stateSet ns) :
    ∀ ds ∈ d.states, value ds < n := by
  have hmem : ∀ {ds ns}, ds ∈ ns → (value ds : State) ∈ Description.stateSet ns := fun h =>
    StateSet.mem_ofList.mpr (List.mem_map_of_mem h)
  rw [Description.states, List.forall_mem_cons, List.forall_mem_append]
  refine ⟨?_, fun ds hds => ?_, fun ds hds => ?_⟩
  · have h := N.start_inRange.2
    rw [hstart, hcount] at h
    exact Int.ofNat_lt.mp h
  · have h := (N.accepting_inRange _ (haccepting ▸ hmem hds)).2
    rw [hcount] at h
    exact Int.ofNat_lt.mp h
  · obtain ⟨r, hr, hds⟩ := List.mem_flatMap.mp hds
    obtain ⟨ns, hns, hds⟩ := List.mem_flatten.mp hds
    obtain ⟨b, hb⟩ := exists_column (hlength r hr) hns
    obtain ⟨i, hi⟩ := List.mem_iff_getElem?.mp hr
    have h := (Nfa.inRange_of_mem_query (hquery i r hi b ns hb ▸ hmem hds)).2.2
    rw [hcount] at h
    exact Int.ofNat_lt.mp h

/-- **An automaton that is made of a description is described by it**, and its parts agree. -/
theorem describes_of_toNfa (hd : l.description = d) (hds : ∀ ds ∈ d.numerals, IsNumeral ds)
    (h : l.toNfa text = .ok N) : d.Short ∧ d.Coherent ∧ d.Describes N := by
  obtain ⟨hshort, hne, hcount, hlines, h⟩ := (toNfa_eq_ok hd hds).mp h
  have hsymbols : N.alphabet.symbols = d.symbols := by
    obtain ⟨_, _, h⟩ := bind_eq_ok.mp h
    exact symbols_of_ofTable h
  have hsign : epsilonSign ∉ d.symbols := hsymbols ▸ N.alphabet.epsilon_notMem
  have hnodup : d.symbols.Nodup := hsymbols ▸ N.alphabet.nodup
  have hlength : ∀ r ∈ d.rows, r.2.length = d.symbols.length + 1 := by
    intro r hr
    obtain ⟨i, hi⟩ := List.mem_iff_getElem?.mp hr
    exact (hlines i r hi).2
  have hcolumns := nodup_columns hnodup hsign
  obtain ⟨ts, hts, hleads⟩ := exists_transitions hcolumns hlength
  rw [hts] at h
  obtain ⟨hcountN, hstart, _, htransitions, F, hF, hmem⟩ := Nfa.ofValues_eq_ok.mp h
  obtain rfl := List.map_injective_iff.mpr (fun _ _ => Value.transition.inj)
    (Except.ok.inj htransitions)
  have hcountN : N.stateCount = value d.declared := (Int.ofNat.inj (Value.int.inj hcountN)).symm
  have hstart : N.start = value d.initial := (Value.int.inj hstart).symm
  have haccepting := accepting_eq_stateSet hF hmem
  have hquery : ∀ (i : Nat) r, d.rows[i]? = some r → ∀ b ns,
      (b, ns) ∈ (d.symbols ++ [epsilonSign]).zip r.2 →
        N.query i (.ofText b) = Description.stateSet ns :=
    fun i r hr b ns hns => query_eq_stateSet hcolumns hleads hr hns
  refine ⟨hshort, ⟨hcount, fun i r hr => (hlines i r hr).1, hlength, hnodup, hne, ?_⟩,
    hcountN, hsymbols, hstart, haccepting, fun i r hr => ?_⟩
  · exact states_lt_of_describes hlength (hcountN.trans hcount) hstart haccepting hquery
  · rw [Description.columns_eq hsign, List.forall₂_map_left_iff, List.forall₂_iff_zip]
    refine ⟨?_, fun {b ns} hns => hquery i r hr b ns hns⟩
    rw [List.length_append, hlength r (List.mem_of_getElem? hr)]
    rfl

namespace Description.Coherent

variable (hd : d.Coherent)
include hd

theorem inRange_of_mem_states {ds : Digits} (h : ds ∈ d.states) :
    InRange d.rows.length (value ds) :=
  ⟨Int.natCast_nonneg _, Int.ofNat_lt.mpr (hd.states_lt ds h)⟩

theorem inRange_of_mem_stateSet {ns : List Digits} (hns : ∀ ds ∈ ns, ds ∈ d.states)
    (h : y ∈ stateSet ns) : InRange d.rows.length y := by
  obtain ⟨ds, hds, rfl⟩ := List.mem_map.mp (StateSet.mem_ofList.mp h)
  exact hd.inRange_of_mem_states (hns ds hds)

/-- A coherent description leads from its states to its states, on its columns. -/
theorem inRange_of_leads (h : d.Leads k b y) :
    InRange d.rows.length k ∧ InRange d.rows.length y ∧ b ∈ d.symbols ++ [epsilonSign] := by
  obtain ⟨i, r, hr, rfl, ns, hns, hy⟩ := h
  obtain ⟨hb, hset⟩ := List.of_mem_zip hns
  refine ⟨⟨Int.natCast_nonneg i, Int.ofNat_lt.mpr (List.getElem?_eq_some_iff.mp hr).1⟩, ?_, hb⟩
  refine hd.inRange_of_mem_stateSet (fun ds hds => ?_) hy
  refine List.mem_cons_of_mem _ (List.mem_append_right _ ?_)
  exact List.mem_flatMap.mpr ⟨r, List.mem_of_getElem? hr, List.mem_flatten.mpr ⟨ns, hset, hds⟩⟩

/-- What leads where a coherent description says belongs to an automaton with its states. -/
theorem fits {A : Alphabet} (hA : A.symbols = d.symbols) {t : Transition}
    (ht : ∀ b, t.Reads (.ofText b) → d.Leads t.source b t.target) : t.Fits d.rows.length A := by
  obtain ⟨b, hb⟩ := MoveTable.exists_reads_ofText t
  obtain ⟨hsource, htarget, _⟩ := hd.inRange_of_leads (ht b hb)
  refine ⟨hsource, htarget, fun a ha => ?_⟩
  obtain ⟨_, _, hcolumn⟩ := hd.inRange_of_leads (ht a (MoveTable.reads_of_mem_inputs ha))
  obtain hmem | hmem := List.mem_append.mp hcolumn
  · exact Alphabet.mem_symbols.mp (hA ▸ hmem)
  · exact absurd (List.mem_singleton.mp hmem ▸ ha) t.epsilon_notMem

/-- **A coherent description makes an automaton.** -/
theorem exists_toNfa_eq_ok (hl : l.description = d) (hds : ∀ ds ∈ d.numerals, IsNumeral ds)
    (hsymbols : ∀ a ∈ d.symbols, IsSymbol a) (hshort : d.Short) : ∃ N, l.toNfa text = .ok N := by
  have hsign : epsilonSign ∉ d.symbols := fun h => (hd.symbols_ne _ h).2 rfl
  have hempty : ("" : Symbol) ∉ d.symbols := fun h => (hsymbols _ h).1 rfl
  let A : Alphabet := ⟨d.symbols, hd.symbols_nodup, hsign, hempty⟩
  obtain ⟨ts, hts, hleads⟩ :=
    exists_transitions (nodup_columns hd.symbols_nodup hsign) hd.sets_length
  have hfit : ∀ t ∈ ts, t.Fits d.rows.length A := fun t ht =>
    hd.fits rfl fun b hb => (hleads _ _ _).mp ⟨t, ht, hb, rfl, rfl⟩
  have haccepting : ∀ ds ∈ d.accepting, ds ∈ d.states := fun _ hds =>
    List.mem_cons_of_mem _ (List.mem_append_left _ hds)
  let N : Nfa :=
    { stateCount := d.rows.length
      alphabet := A
      transitions := ts
      start := value d.initial
      accepting := stateSet d.accepting
      start_inRange := hd.inRange_of_mem_states List.mem_cons_self
      accepting_inRange := fun _ hs => hd.inRange_of_mem_stateSet haccepting hs
      transitions_fit := hfit }
  refine ⟨N, (toNfa_eq_ok hl hds).mpr ⟨hshort, hd.symbols_ne, hd.declared_eq, fun i r hr =>
    ⟨hd.label_eq i r hr, hd.sets_length r (List.mem_of_getElem? hr)⟩, ?_⟩⟩
  rw [hts, hd.declared_eq]
  obtain ⟨m, hm, hmem⟩ := Value.distinctMembers_int (d.accepting.map fun ds => (value ds : Int))
  rw [List.map_map] at hm
  exact Nfa.ofValues_eq_ok.mpr ⟨rfl, rfl, rfl, rfl, m, hm, fun s =>
    StateSet.mem_ofList.trans (hmem s).symm⟩

end Description.Coherent

end Layout

/-- **Which texts describe an automaton, and which automaton.** A text does if and only if it spells
a description with numerals that can be read, whose parts agree with each other; the automaton is
then as described. -/
theorem Nfa.ofLayout_iff_description (text : Text) :
    ((∃ N, ofLayout text = .ok N) ↔
      ∃ d, text ∈ Layout.Grammar.texts d ∧ d.Short ∧ d.Coherent) ∧
    ∀ N d, ofLayout text = .ok N → text ∈ Layout.Grammar.texts d → d.Describes N := by
  have hread : ∀ N, ofLayout text = .ok N → ∃ d, text ∈ Layout.Grammar.texts d ∧
      d.Short ∧ d.Coherent ∧ d.Describes N := by
    intro N h
    obtain ⟨l, hl, h⟩ := bind_eq_ok.mp h
    have hspelled := Layout.exists_read_eq_ok_iff.mp ⟨l, hl, rfl⟩
    have hnumerals := (Layout.Grammar.wellFormed_of_mem_texts hspelled).1
    exact ⟨_, hspelled, Layout.describes_of_toNfa rfl hnumerals h⟩
  refine ⟨⟨fun ⟨N, h⟩ => ?_, ?_⟩, fun N d h hspelled => ?_⟩
  · obtain ⟨d, hspelled, hshort, hcoherent, _⟩ := hread N h
    exact ⟨d, hspelled, hshort, hcoherent⟩
  · rintro ⟨d, hspelled, hshort, hcoherent⟩
    obtain ⟨l, hl, hd⟩ := Layout.exists_read_eq_ok_iff.mpr hspelled
    obtain ⟨hnumerals, hsymbols⟩ := Layout.Grammar.wellFormed_of_mem_texts hspelled
    obtain ⟨N, hN⟩ := hcoherent.exists_toNfa_eq_ok hd hnumerals hsymbols hshort
    exact ⟨N, bind_eq_ok.mpr ⟨l, hl, hN⟩⟩
  · obtain ⟨d', hspelled', _, _, hdescribes⟩ := hread N h
    exact Layout.description_unique hspelled' hspelled ▸ hdescribes

/-- Two states that change places on the one symbol. -/
def Layout.turn : Description where
  declared := ['2']
  symbols := ["a"]
  rows := [(['0'], [[['1']], []]), (['0', '1'], [[['0']], []])]
  initial := ['0']
  accepting := [['1']]

def Layout.turnText : Text :=
  "|Q|:2\nSigma:a\n-\n0:\x7b1\x7d\x7b\x7d\n01:\x7b0\x7d\x7b\x7d\n-\n" ++
    "InitialState:0\nAcceptingState(s):1"

theorem Nfa.ofLayout_iff_description_turn :
    Layout.turnText ∈ Layout.Grammar.texts Layout.turn ∧ Layout.turn.Short ∧
      Layout.turn.Coherent ∧ ∃ N, ofLayout Layout.turnText = .ok N ∧ Layout.turn.Describes N := by
  have hspelled : Layout.turnText ∈ Layout.Grammar.texts Layout.turn :=
    Layout.exists_read_eq_ok_iff.mp ⟨_, rfl, rfl⟩
  have hshort : Layout.turn.Short := by
    unfold Layout.Description.Short
    decide
  have hcoherent : Layout.turn.Coherent := by
    refine ⟨rfl, fun i r hr => ?_, by decide, by decide, by decide, by decide⟩
    obtain _ | _ | i := i <;> simp [Layout.turn] at hr <;> subst hr <;> rfl
  have htheorem := ofLayout_iff_description Layout.turnText
  obtain ⟨N, hN⟩ := htheorem.1.mpr ⟨Layout.turn, hspelled, hshort, hcoherent⟩
  exact ⟨hspelled, hshort, hcoherent, N, hN, htheorem.2 N Layout.turn hN hspelled⟩

end FiniteAutomata
