import FiniteAutomata.Nfa.MoveTable
import FiniteAutomata.Proofs.Nfa.Assembly
import FiniteAutomata.Proofs.Sameness

/-!
# Proofs/Nfa/MoveTable — the transitions of a table lead where its entries do

Entries are added to the edges one after the other (`Edges.moves_addEntry_iff`). So the transitions
that a table stands for lead from a state on a label to the targets that an entry lists there, and
nowhere else (`exists_mem_transitions_iff`). A table of integers and texts whose keys are distinct
always stands for transitions (`Nfa.exists_ofTable_eq`).
-/

namespace FiniteAutomata

namespace MoveTable

variable {k y : State} {b : Symbol} {v : Value} {es : List Edge} {edges : Edges}
  {key : Value × Value} {ys : List State}

/-! ## Edges -/

/-- The edge leads from a state to another on this input. -/
def Edge.Carries (e : Edge) (k : State) (v : Value) (y : State) : Prop :=
  e.source.toInt? = some k ∧ e.target = y ∧ v ∈ e.inputs

theorem exists_carries_addInput_iff {s : Value} {t : State} {a : Value} :
    (∃ e ∈ addInput s t a es, e.Carries k v y) ↔
      (∃ e ∈ es, e.Carries k v y) ∨ s.toInt? = some k ∧ t = y ∧ v = a := by
  induction es with
  | nil => simp [addInput, Edge.Carries]
  | cons e es ih =>
    unfold addInput
    split
    · rename_i h
      obtain ⟨hs, ht⟩ := Bool.and_eq_true _ _ |>.mp h
      rw [← Value.toInt?_eq_of_same hs, ← beq_iff_eq.mp ht]
      simp only [List.exists_mem_cons_iff, Edge.Carries, List.mem_append, List.mem_singleton,
        and_or_left]
      exact or_right_comm
    · simp only [List.exists_mem_cons_iff, ih, or_assoc]

theorem exists_carries_foldl_addInput_iff {s a : Value} :
    (∃ e ∈ ys.foldl (fun es t => addInput s t a es) es, e.Carries k v y) ↔
      (∃ e ∈ es, e.Carries k v y) ∨ s.toInt? = some k ∧ v = a ∧ y ∈ ys := by
  induction ys generalizing es with
  | nil => simp
  | cons t ts ih =>
    rw [List.foldl_cons, ih, exists_carries_addInput_iff, List.mem_cons]
    constructor
    · rintro ((h | ⟨hs, rfl, hv⟩) | ⟨hs, hv, hy⟩)
      · exact .inl h
      · exact .inr ⟨hs, hv, .inl rfl⟩
      · exact .inr ⟨hs, hv, .inr hy⟩
    · rintro (h | ⟨hs, hv, rfl | hy⟩)
      · exact .inl (.inl h)
      · exact .inl (.inr ⟨hs, rfl, hv⟩)
      · exact .inr ⟨hs, hv, hy⟩

/-- **Some edge leads from a state to another on a label**, which is named by a text. -/
def Edges.Moves (edges : Edges) (k : State) (b : Symbol) (y : State) : Prop :=
  if b = epsilonSign then ∃ e ∈ edges.empty, e.source.toInt? = some k ∧ e.target = y
  else ∃ e ∈ edges.labelled, e.Carries k (.text b) y

/-- **What one more entry adds**: moves from its state on its label to its targets. -/
theorem Edges.moves_addEntry_iff : (addEntry edges key ys).Moves k b y ↔
    edges.Moves k b y ∨ key.1.toInt? = some k ∧ key.2 = .text b ∧ y ∈ ys := by
  unfold Moves addEntry
  by_cases hkey : key.2.same (.text epsilonSign) = true
  · have he : key.2 = .text epsilonSign := Value.same_text.mp hkey
    rw [if_pos hkey, he]
    split
    · rename_i hb
      subst hb
      simp only [List.mem_append, List.mem_map, or_and_right, exists_or, true_and]
      refine or_congr_right ⟨?_, ?_⟩
      · rintro ⟨_, ⟨t, ht, rfl⟩, hs, rfl⟩
        exact ⟨hs, ht⟩
      · rintro ⟨hs, hy⟩
        exact ⟨_, ⟨y, hy, rfl⟩, hs, rfl⟩
    · rename_i hb
      refine (or_iff_left fun h => hb ?_).symm
      exact (Value.text.inj h.2.1).symm
  · rw [if_neg hkey]
    split
    · rename_i hb
      refine (or_iff_left fun h => hkey ?_).symm
      exact Value.same_text.mpr (hb ▸ h.2.1)
    · rw [exists_carries_foldl_addInput_iff, eq_comm (a := Value.text b)]

/-- The edge has inputs, none of them the sign of the empty move. -/
structure Edge.IsLabelled (e : Edge) (S A : Value → Prop) : Prop where
  source : S e.source
  inputs_ne : e.inputs ≠ []
  inputs : ∀ v ∈ e.inputs, A v ∧ v ≠ .text epsilonSign

/-- **The edges are made of what the entries hold**, whatever is known of their states and their
labels: some edges have inputs and the others none. -/
structure Edges.Over (edges : Edges) (S A : Value → Prop) : Prop where
  labelled : ∀ e ∈ edges.labelled, e.IsLabelled S A
  empty : ∀ e ∈ edges.empty, S e.source ∧ e.inputs = []

variable {S A : Value → Prop}

theorem forall_mem_addInput {P : Edge → Prop} {s : Value} {t : State} {a : Value}
    (hnew : P ⟨s, t, [a]⟩) (hmore : ∀ e, P e → P { e with inputs := e.inputs ++ [a] })
    (hes : ∀ e ∈ es, P e) : ∀ e ∈ addInput s t a es, P e := by
  induction es with
  | nil => exact List.forall_mem_singleton.mpr hnew
  | cons e es ih =>
    obtain ⟨he, hes⟩ := List.forall_mem_cons.mp hes
    unfold addInput
    split
    · exact List.forall_mem_cons.mpr ⟨hmore e he, hes⟩
    · exact List.forall_mem_cons.mpr ⟨he, ih hes⟩

theorem Edges.Over.addEntry (h : edges.Over S A) (hs : S key.1) (ha : A key.2) :
    (addEntry edges key ys).Over S A := by
  unfold MoveTable.addEntry
  split
  · refine ⟨h.labelled, fun e he => ?_⟩
    obtain he | he := List.mem_append.mp he
    · exact h.empty e he
    · obtain ⟨t, _, rfl⟩ := List.mem_map.mp he
      exact ⟨hs, rfl⟩
  · rename_i hkey
    have hinput : A key.2 ∧ key.2 ≠ .text epsilonSign :=
      ⟨ha, fun he => hkey (Value.same_text.mpr he)⟩
    have hmore : ∀ e : Edge, e.IsLabelled S A →
        ({ e with inputs := e.inputs ++ [key.2] } : Edge).IsLabelled S A := by
      rintro e ⟨hs, _, hinputs⟩
      refine ⟨hs, by simp, fun v hv => ?_⟩
      obtain hv | hv := List.mem_append.mp hv
      · exact hinputs v hv
      · exact List.mem_singleton.mp hv ▸ hinput
    have hnew : ∀ t, (⟨key.1, t, [key.2]⟩ : Edge).IsLabelled S A := fun t =>
      ⟨hs, List.cons_ne_nil _ _, List.forall_mem_singleton.mpr hinput⟩
    refine ⟨?_, h.empty⟩
    exact List.foldlRecOn ys _ (motive := fun es : List Edge => ∀ e ∈ es, e.IsLabelled S A)
      h.labelled fun es hes t _ => forall_mem_addInput (P := (·.IsLabelled S A)) (hnew t) hmore hes

/-! ## Tables -/

/-- The edges after all entries of a table. -/
def addEntries (edges : Edges) (table : List ((Value × Value) × Value)) : Except Error Edges :=
  table.foldlM (fun edges e => do return addEntry edges e.1 (← targetsOf e.2)) edges

variable {table : List ((Value × Value) × Value)} {edges' : Edges}

theorem addEntries_cons_eq_ok {e : (Value × Value) × Value} :
    addEntries edges (e :: table) = .ok edges' ↔
      ∃ ys, targetsOf e.2 = .ok ys ∧ addEntries (addEntry edges e.1 ys) table = .ok edges' := by
  rw [addEntries, List.foldlM_cons, bind_eq_ok]
  constructor
  · rintro ⟨_, h, hrest⟩
    obtain ⟨ys, hys, h⟩ := bind_eq_ok.mp h
    exact ⟨ys, hys, Except.ok.inj h ▸ hrest⟩
  · rintro ⟨ys, hys, hrest⟩
    exact ⟨_, bind_eq_ok.mpr ⟨ys, hys, rfl⟩, hrest⟩

/-- **The edges of a table lead where its entries do.** -/
theorem moves_addEntries_iff (h : addEntries edges table = .ok edges') :
    edges'.Moves k b y ↔ edges.Moves k b y ∨ ∃ e ∈ table, e.1.1.toInt? = some k ∧
      e.1.2 = .text b ∧ ∃ ys, targetsOf e.2 = .ok ys ∧ y ∈ ys := by
  induction table generalizing edges with
  | nil =>
    obtain rfl := Except.ok.inj h
    simp
  | cons e table ih =>
    obtain ⟨ys, hys, h⟩ := addEntries_cons_eq_ok.mp h
    rw [ih h, Edges.moves_addEntry_iff, List.exists_mem_cons_iff, or_assoc]
    simp [hys]

theorem Edges.Over.addEntries (h : edges.Over S A) (htable : ∀ e ∈ table, S e.1.1 ∧ A e.1.2)
    (hedges : addEntries edges table = .ok edges') : edges'.Over S A := by
  induction table generalizing edges with
  | nil => exact Except.ok.inj hedges ▸ h
  | cons e table ih =>
    obtain ⟨⟨hs, ha⟩, htable⟩ := List.forall_mem_cons.mp htable
    obtain ⟨ys, _, hedges⟩ := addEntries_cons_eq_ok.mp hedges
    exact ih (h.addEntry hs ha) htable hedges

/-! ## Transitions -/

/-- The edge that a transition is. -/
def Edge.ofTransition (t : Transition) : Edge := ⟨.int t.source, t.target, t.inputs.map .text⟩

/-- An edge without the sign of the empty move becomes the transition that it is. -/
theorem ofValues_edge_eq_ok {e : Edge} {t : Transition} (he : .text epsilonSign ∉ e.inputs) :
    Transition.ofValues e.source (.int e.target) (.list e.inputs) = .ok t ↔
      e = Edge.ofTransition t := by
  rw [Transition.ofValues_eq_ok]
  constructor
  · rintro ⟨hs, ht, as, has, ⟨rfl, _⟩ | rfl⟩
    · exact absurd (Value.list.inj has ▸ List.mem_singleton_self _) he
    · cases e
      simp_all [Edge.ofTransition]
  · rintro rfl
    exact ⟨rfl, rfl, t.inputs, rfl, .inr rfl⟩

theorem Edges.Over.epsilon_notMem (h : edges.Over S A) :
    ∀ e ∈ edges.labelled ++ edges.empty, .text epsilonSign ∉ e.inputs := by
  intro e he hmem
  obtain he | he := List.mem_append.mp he
  · exact ((h.labelled e he).inputs _ hmem).2 rfl
  · exact absurd ((h.empty e he).2 ▸ hmem) List.not_mem_nil

theorem over_nil : (⟨[], []⟩ : Edges).Over S A := ⟨nofun, nofun⟩

theorem not_moves_nil : ¬ (⟨[], []⟩ : Edges).Moves k b y := by
  unfold Edges.Moves
  split <;> simp

theorem over_of_addEntries (h : addEntries ⟨[], []⟩ table = .ok edges) :
    edges.Over (fun _ => True) fun _ => True :=
  over_nil.addEntries (fun _ _ => ⟨trivial, trivial⟩) h

variable {ts : List Transition}

/-- **A table stands for the transitions that its edges are.** -/
theorem transitions_eq_ok : transitions table = .ok ts ↔ ∃ edges,
    addEntries ⟨[], []⟩ table = .ok edges ∧
      edges.labelled ++ edges.empty = ts.map Edge.ofTransition := by
  change (addEntries ⟨[], []⟩ table >>= _) = _ ↔ _
  rw [bind_eq_ok]
  refine exists_congr fun edges => and_congr_right fun hedges => ?_
  have hsign := (over_of_addEntries hedges).epsilon_notMem
  exact mapM_eq_ok_iff_eq_map_of_mem fun e he t => ofValues_edge_eq_ok (hsign e he)

theorem reads_ofText_iff {t : Transition} :
    t.Reads (.ofText b) ↔ if b = epsilonSign then t.inputs = [] else b ∈ t.inputs := by
  unfold Label.ofText
  split <;> rfl

theorem reads_of_mem_inputs {t : Transition} (h : b ∈ t.inputs) : t.Reads (.ofText b) := by
  have hne : b ≠ epsilonSign := fun he => t.epsilon_notMem (he ▸ h)
  rw [reads_ofText_iff, if_neg hne]
  exact h

/-- Every transition reads a label, and that has a name. -/
theorem exists_reads_ofText (t : Transition) : ∃ b, t.Reads (.ofText b) := by
  cases hinputs : t.inputs with
  | nil => exact ⟨epsilonSign, reads_ofText_iff.mpr (by rwa [if_pos rfl])⟩
  | cons a as => exact ⟨a, reads_of_mem_inputs (hinputs ▸ List.mem_cons_self)⟩

/-- Edges lead where the transitions do that they are. -/
theorem Edges.Over.exists_mem_iff_moves (h : edges.Over S A)
    (hts : edges.labelled ++ edges.empty = ts.map Edge.ofTransition) :
    (∃ t ∈ ts, t.Reads (.ofText b) ∧ t.source = k ∧ t.target = y) ↔ edges.Moves k b y := by
  have hmem : ∀ t ∈ ts, Edge.ofTransition t ∈ edges.labelled ∨ Edge.ofTransition t ∈ edges.empty :=
    fun t ht => List.mem_append.mp (hts ▸ List.mem_map_of_mem ht)
  have hof : ∀ e ∈ edges.labelled ++ edges.empty, ∃ t ∈ ts, Edge.ofTransition t = e :=
    fun e he => List.mem_map.mp (hts ▸ he)
  simp only [reads_ofText_iff]
  unfold Edges.Moves
  split
  · constructor
    · rintro ⟨t, ht, hinputs, rfl, rfl⟩
      obtain he | he := hmem t ht
      · exact absurd (by simp [Edge.ofTransition, hinputs]) (h.labelled _ he).inputs_ne
      · exact ⟨_, he, rfl, rfl⟩
    · rintro ⟨e, he, hs, rfl⟩
      obtain ⟨t, ht, rfl⟩ := hof e (List.mem_append_right _ he)
      exact ⟨t, ht, List.map_eq_nil_iff.mp (h.empty _ he).2, Option.some.inj hs, rfl⟩
  · constructor
    · rintro ⟨t, ht, hb, rfl, rfl⟩
      obtain he | he := hmem t ht
      · exact ⟨_, he, rfl, rfl, List.mem_map_of_mem hb⟩
      · have hnil := List.map_eq_nil_iff.mp (h.empty _ he).2
        exact absurd (hnil ▸ hb) List.not_mem_nil
    · rintro ⟨e, he, hs, rfl, hv⟩
      obtain ⟨t, ht, rfl⟩ := hof e (List.mem_append_left _ he)
      obtain ⟨b', hb', heq⟩ := List.mem_map.mp hv
      exact ⟨t, ht, Value.text.inj heq ▸ hb', Option.some.inj hs, rfl⟩

/-- **The transitions of a table lead where its entries do.** -/
theorem exists_mem_transitions_iff (h : transitions table = .ok ts) :
    (∃ t ∈ ts, t.Reads (.ofText b) ∧ t.source = k ∧ t.target = y) ↔
      ∃ e ∈ table, e.1.1.toInt? = some k ∧ e.1.2 = .text b ∧
        ∃ ys, targetsOf e.2 = .ok ys ∧ y ∈ ys := by
  obtain ⟨edges, hedges, hts⟩ := transitions_eq_ok.mp h
  rw [(over_of_addEntries hedges).exists_mem_iff_moves hts, moves_addEntries_iff hedges,
    or_iff_right not_moves_nil]

/-! ## Tables of integers and texts -/

/-- Moves that a table lists: a state, what names a label, and the targets. -/
abbrev Listed := (State × Symbol) × List State

/-- The entry for listed moves. -/
def entry (m : Listed) : Value × Value :=
  (.tuple [.int m.1.1, .text m.1.2], .list (m.2.map .int))

variable {ms : List Listed}

theorem same_entry_iff {m m' : Listed} : (entry m).1.same (entry m').1 = true ↔ m.1 = m'.1 := by
  simp [entry, Value.same, Value.sameAll, Value.toInt?, Prod.ext_iff]

/-- An entry with a key of its own comes last. -/
theorem set_eq_append {key targets : Value} {table : MoveTable}
    (h : ∀ e ∈ table, ¬ e.1.same key = true) :
    table.set key targets = table ++ [(key, targets)] := by
  induction table with
  | nil => rfl
  | cons e table ih =>
    obtain ⟨he, htable⟩ := List.forall_mem_cons.mp h
    rw [set, if_neg he, ih htable, List.cons_append]

theorem foldl_set_map_entry (h : (ms.map (·.1)).Nodup) :
    (ms.map entry).foldl (fun (table : MoveTable) e => table.set e.1 e.2) [] = ms.map entry := by
  -- by induction on the moves from their end, where the last entry meets all others
  induction ms using List.reverseRecOn with
  | nil => rfl
  | append_singleton ms m ih =>
    rw [List.map_append] at h
    obtain ⟨hms, _, hne⟩ := List.nodup_append.mp h
    have hkey : ∀ e ∈ ms.map entry, ¬ e.1.same (entry m).1 = true := by
      intro e he hsame
      obtain ⟨m', hm', rfl⟩ := List.mem_map.mp he
      exact hne _ (List.mem_map_of_mem hm') _ (List.mem_singleton_self _) (same_entry_iff.mp hsame)
    rw [List.map_append, List.foldl_append, ih hms]
    exact set_eq_append hkey

/-- A set can hold the keys of listed moves. -/
theorem checkHashable_entries (ms : List Listed) :
    (ms.map entry).forM (fun e => e.1.checkHashable) = .ok () := by
  refine forM_eq_ok_iff.mpr fun e he => ?_
  obtain ⟨m, _, rfl⟩ := List.mem_map.mp he
  rfl

/-- **Entries with distinct keys are the table.** -/
theorem ofEntries_map_entry (h : (ms.map (·.1)).Nodup) :
    ofEntries (ms.map entry) = .ok (ms.map entry) := by
  rw [ofEntries, checkHashable_entries]
  exact congrArg Except.ok (foldl_set_map_entry h)

section

variable {P : State × Symbol → Prop} {Q : List State → Prop}

/-- One more entry takes a place of its own or the targets of one that is there. -/
theorem exists_set_entry {m : Listed} (hm : P m.1 ∧ Q m.2) (hms : ∀ n ∈ ms, P n.1 ∧ Q n.2) :
    ∃ ms' : List Listed, set (entry m).1 (entry m).2 (ms.map entry) = ms'.map entry ∧
      ∀ n ∈ ms', P n.1 ∧ Q n.2 := by
  induction ms with
  | nil => exact ⟨[m], rfl, List.forall_mem_singleton.mpr hm⟩
  | cons n ms ih =>
    obtain ⟨hn, hms⟩ := List.forall_mem_cons.mp hms
    rw [List.map_cons, set]
    split
    · exact ⟨(n.1, m.2) :: ms, rfl, List.forall_mem_cons.mpr ⟨⟨hn.1, hm.2⟩, hms⟩⟩
    · obtain ⟨ms', hset, hms'⟩ := ih hms
      exact ⟨n :: ms', congrArg _ hset, List.forall_mem_cons.mpr ⟨hn, hms'⟩⟩

/-- **Entries make a table**, and all that is known of their keys and of their targets is true of
those in the table. -/
theorem exists_ofEntries_eq_ok (hms : ∀ n ∈ ms, P n.1 ∧ Q n.2) :
    ∃ ms' : List Listed, ofEntries (ms.map entry) = .ok (ms'.map entry) ∧
      ∀ n ∈ ms', P n.1 ∧ Q n.2 := by
  have hfold : ∃ ms' : List Listed,
      (ms.map entry).foldl (fun (table : MoveTable) e => table.set e.1 e.2) [] = ms'.map entry ∧
        ∀ n ∈ ms', P n.1 ∧ Q n.2 := by
    -- by induction on the moves from their end, where the last entry meets the table of the others
    induction ms using List.reverseRecOn with
    | nil => exact ⟨[], rfl, nofun⟩
    | append_singleton ms m ih =>
      obtain ⟨hms, hm⟩ := List.forall_mem_append.mp hms
      obtain ⟨ms', hfold, hms'⟩ := ih hms
      rw [List.map_append, List.foldl_append, hfold]
      exact exists_set_entry (hm m (List.mem_singleton_self m)) hms'
  obtain ⟨ms', hfold, hms'⟩ := hfold
  refine ⟨ms', ?_, hms'⟩
  rw [ofEntries, checkHashable_entries]
  exact congrArg Except.ok hfold

end

/-- The targets of an entry are those that are listed. -/
theorem exists_targetsOf_list_int (ys : List State) :
    ∃ zs, targetsOf (.list (ys.map .int)) = .ok zs ∧ ∀ y, y ∈ zs ↔ y ∈ ys := by
  obtain ⟨l, hl, hmem⟩ := Value.distinctMembers_int ys
  refine ⟨(StateSet.ofList l).elems, bind_eq_ok.mpr ⟨_, hl, bind_eq_ok.mpr ⟨l, ?_, rfl⟩⟩,
    fun y => ?_⟩
  · exact (mapM_eq_ok_iff_eq_map fun _ _ => Value.checkInt_eq_ok).mpr rfl
  · rw [StateSet.mem_elems, StateSet.mem_ofList, hmem]

/-- The entry with its key taken apart. -/
def splitEntry (m : Listed) : (Value × Value) × Value :=
  ((.int m.1.1, .text m.1.2), .list (m.2.map .int))

/-- **A table of integers and texts stands for transitions.** -/
theorem exists_transitions_eq_ok : ∃ ts, transitions (ms.map splitEntry) = .ok ts := by
  have hadd : ∀ edges, ∃ edges', addEntries edges (ms.map splitEntry) = .ok edges' := by
    induction ms with
    | nil => exact fun edges => ⟨edges, rfl⟩
    | cons m ms ih =>
      intro edges
      obtain ⟨ys, hys, _⟩ := exists_targetsOf_list_int m.2
      obtain ⟨edges', h⟩ := ih (addEntry edges (splitEntry m).1 ys)
      exact ⟨edges', addEntries_cons_eq_ok.mpr ⟨ys, hys, h⟩⟩
  obtain ⟨edges, hedges⟩ := hadd ⟨[], []⟩
  have hover : edges.Over (fun v => ∃ s, v = .int s) (fun v => ∃ a, v = .text a) := by
    refine over_nil.addEntries (fun e he => ?_) hedges
    obtain ⟨m, _, rfl⟩ := List.mem_map.mp he
    exact ⟨⟨_, rfl⟩, _, rfl⟩
  have hof : ∀ e ∈ edges.labelled ++ edges.empty, ∃ t, e = Edge.ofTransition t := by
    intro e he
    have hsign := hover.epsilon_notMem e he
    obtain ⟨s, t, inputs⟩ := e
    have hparts : (∃ k, s = .int k) ∧ ∃ as : List Text, inputs = as.map .text := by
      obtain he | he := List.mem_append.mp he
      · obtain ⟨hs, _, hinputs⟩ := hover.labelled _ he
        exact ⟨hs, forall_mem_eq_map.mp fun v hv => (hinputs v hv).1⟩
      · obtain ⟨hs, hinputs⟩ := hover.empty _ he
        exact ⟨hs, [], hinputs⟩
    obtain ⟨⟨k, rfl⟩, as, rfl⟩ := hparts
    exact ⟨⟨k, t, as, fun h => hsign (List.mem_map_of_mem h)⟩, rfl⟩
  obtain ⟨ts, hts⟩ := forall_mem_eq_map.mp hof
  exact ⟨ts, transitions_eq_ok.mpr ⟨edges, hedges, hts⟩⟩

end MoveTable

/-- **An automaton given by a table of listed moves** is made from transitions that lead where those
do. -/
theorem Nfa.exists_ofTable_map_entry (ms : List MoveTable.Listed) :
    ∃ ts : List Transition,
      (∀ count alphabet start accepting,
        ofTable count alphabet (ms.map MoveTable.entry) start accepting =
          ofValues count alphabet (.list (ts.map .transition)) start accepting) ∧
      ∀ k b y, (∃ t ∈ ts, t.Reads (.ofText b) ∧ t.source = k ∧ t.target = y) ↔
        ∃ ys, ((k, b), ys) ∈ ms ∧ y ∈ ys := by
  obtain ⟨ts, hts⟩ : ∃ ts, MoveTable.transitions (ms.map MoveTable.splitEntry) = .ok ts :=
    MoveTable.exists_transitions_eq_ok
  have hsplit : (ms.map MoveTable.entry).mapM (fun e => do
      return (← MoveTable.splitKey e.1, e.2)) = .ok (ms.map MoveTable.splitEntry) := by
    rw [mapM_eq_ok_iff]
    exact List.forall₂_map_left_iff.mpr (List.forall₂_map_right_iff.mpr
      (List.forall₂_same.mpr fun _ _ => rfl))
  refine ⟨ts, fun count alphabet start accepting => ?_, fun k b y => ?_⟩
  · rw [ofTable, hsplit]
    change MoveTable.transitions _ >>= _ = _
    rw [hts]
    rfl
  · rw [MoveTable.exists_mem_transitions_iff hts]
    constructor
    · rintro ⟨_, he, hk, hb, zs, hzs, hy⟩
      obtain ⟨⟨⟨k', b'⟩, ys⟩, hm, rfl⟩ := List.mem_map.mp he
      obtain rfl := Option.some.inj hk
      obtain rfl := Value.text.inj hb
      obtain ⟨zs', hzs', hmem⟩ := MoveTable.exists_targetsOf_list_int ys
      obtain rfl := Except.ok.inj (hzs.symm.trans hzs')
      exact ⟨ys, hm, (hmem y).mp hy⟩
    · rintro ⟨ys, hm, hy⟩
      obtain ⟨zs, hzs, hmem⟩ := MoveTable.exists_targetsOf_list_int ys
      exact ⟨_, List.mem_map_of_mem hm, rfl, rfl, zs, hzs, (hmem y).mpr hy⟩

/-- **An automaton given by listed moves** with distinct keys is made from transitions that lead
where those do. -/
theorem Nfa.exists_ofTable_eq {ms : List MoveTable.Listed} (h : (ms.map (·.1)).Nodup) :
    ∃ ts : List Transition,
      (∀ count alphabet start accepting,
        (MoveTable.ofEntries (ms.map MoveTable.entry) >>= fun table =>
          ofTable count alphabet table start accepting) =
        ofValues count alphabet (.list (ts.map .transition)) start accepting) ∧
      ∀ k b y, (∃ t ∈ ts, t.Reads (.ofText b) ∧ t.source = k ∧ t.target = y) ↔
        ∃ ys, ((k, b), ys) ∈ ms ∧ y ∈ ys := by
  rw [MoveTable.ofEntries_map_entry h]
  exact exists_ofTable_map_entry ms

end FiniteAutomata
