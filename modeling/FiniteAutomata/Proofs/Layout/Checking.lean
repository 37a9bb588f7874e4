import FiniteAutomata.Proofs.Layout.Grammar
import FiniteAutomata.Proofs.Nfa.MoveTable
import FiniteAutomata.Proofs.Text.Numeral
import FiniteAutomata.Source

/-!
# Proofs/Layout/Checking — which descriptions pass the checks

Every part of a description is checked on its own: its numerals must be short enough to be read, no
symbol may be a name of the empty move, and the rows must be in order, with one set for each column.
An automaton is then made of the moves of all rows (`toNfa_eq_ok`).
-/

namespace FiniteAutomata

namespace Layout

/-! ## Numerals -/

/-- The number that digits stand for. -/
def value (ds : Digits) : Nat := Nat.ofDigitChars 10 (ds.filterMap CodePoint.char?) 0

/-- The numerals can all be read as numbers. -/
def Description.Short (d : Description) : Prop := ∀ ds ∈ d.numerals, ds.length ≤ Text.numeralLimit

variable {part : Text} {ds : Digits} {n : Nat}

theorem ofDigits_eq_value (hds : IsNumeral ds) :
    Text.ofDigits 10 (ds.filterMap Text.basicDigit?) = value ds := by
  obtain ⟨cs, rfl, hcs⟩ := Text.exists_chars hds.2
  have hchars : (cs.map CodePoint.char).filterMap CodePoint.char? = cs := by
    rw [List.filterMap_map]
    exact List.filterMap_some
  rw [Text.ofDigits_basicDigits hcs, value, hchars]

theorem number_eq_ok (hds : IsNumeral ds) :
    number part ds = .ok n ↔ ds.length ≤ Text.numeralLimit ∧ value ds = n := by
  unfold number
  rw [ofDigits_eq_value hds]
  split
  · rename_i h
    exact ⟨nofun, fun hle => absurd hle.1 (by omega)⟩
  · rename_i h
    rw [Except.ok.injEq, and_iff_right (by omega)]

theorem mapM_number_eq_ok {ns : List Digits} (hns : ∀ ds ∈ ns, IsNumeral ds) {ms : List Nat} :
    ns.mapM (number part) = .ok ms ↔
      (∀ ds ∈ ns, ds.length ≤ Text.numeralLimit) ∧ ns.map value = ms :=
  mapM_eq_ok_iff_forall_and_map_eq fun ds hds _ => number_eq_ok (hns ds hds)

theorem numberSets_eq_ok {nss : List (List Digits)} (hnss : ∀ ds ∈ nss.flatten, IsNumeral ds)
    {ms : List (List Nat)} :
    numberSets nss = .ok ms ↔
      (∀ ds ∈ nss.flatten, ds.length ≤ Text.numeralLimit) ∧ nss.map (·.map value) = ms := by
  rw [List.forall_mem_flatten] at hnss ⊢
  exact mapM_eq_ok_iff_forall_and_map_eq fun ns hns _ => mapM_number_eq_ok (hnss ns hns)

theorem numberRows_eq_ok {rows : List Row}
    (hrows : ∀ r ∈ rows, ∀ ds ∈ r.sets.flatten, IsNumeral ds) {ms : List (List (List Nat))} :
    (rows.mapM fun r => numberSets r.sets) = .ok ms ↔
      (∀ r ∈ rows, ∀ ds ∈ r.sets.flatten, ds.length ≤ Text.numeralLimit) ∧
        (rows.map fun r => r.sets.map (·.map value)) = ms :=
  mapM_eq_ok_iff_forall_and_map_eq fun r hr _ => numberSets_eq_ok (hrows r hr)

/-! ## Symbols -/

theorem checkSymbols_eq_ok {text : Text} {ps : List (Symbol × Nat)} {as : List Symbol} :
    checkSymbols text ps = .ok as ↔
      (∀ a ∈ as, a ≠ emptyMoveWord ∧ a ≠ epsilonSign) ∧ ps.map (·.1) = as := by
  unfold checkSymbols
  split
  · rename_i a rest hfind
    refine iff_of_false nofun ?_
    rintro ⟨has, rfl⟩
    obtain ⟨hne, hne'⟩ := has a (List.mem_map_of_mem (List.mem_of_find?_eq_some hfind))
    simpa [hne, hne'] using List.find?_some hfind
  · rename_i hfind
    rw [Except.ok.injEq]
    refine (and_iff_right_of_imp ?_).symm
    rintro rfl a ha
    obtain ⟨q, hq, rfl⟩ := List.mem_map.mp ha
    simpa using List.find?_eq_none.mp hfind q hq

/-! ## Rows -/

/-- The moves that a row lists. -/
def rowMoves (i : Nat) (columns : List Symbol) (sets : List (List Nat)) : List MoveTable.Listed :=
  (columns.zip sets).filterMap fun p =>
    if p.2.isEmpty then none else some (((i : State), p.1), p.2.map fun (n : Nat) => (n : State))

theorem rowEntries_eq {i : Nat} {columns : List Symbol} {sets : List (List Nat)} :
    rowEntries i columns sets = (rowMoves i columns sets).map MoveTable.entry := by
  rw [rowMoves, List.map_filterMap]
  refine List.filterMap_congr fun p _ => ?_
  split
  · rfl
  · simp [MoveTable.entry]

theorem checkRow_eq_ok {text : Text} {columns : List Symbol} {i : Nat} {r : Row}
    (hr : IsNumeral r.label) {sets : List (List Nat)} {es : List (Value × Value)} :
    checkRow text columns i r sets = .ok es ↔
      (r.label.length ≤ Text.numeralLimit ∧ value r.label = i ∧ sets.length = columns.length) ∧
        (rowMoves i columns sets).map MoveTable.entry = es := by
  rw [checkRow, bind_eq_ok]
  simp only [number_eq_ok hr, rowEntries_eq]
  constructor
  · rintro ⟨n, ⟨hshort, rfl⟩, h⟩
    split at h
    · exact nomatch h
    · rename_i hlabel
      split at h
      · exact nomatch h
      · rename_i hsets
        exact ⟨⟨hshort, not_not.mp hlabel, not_not.mp hsets⟩, Except.ok.inj h⟩
  · rintro ⟨⟨hshort, rfl, hsets⟩, rfl⟩
    refine ⟨_, ⟨hshort, rfl⟩, ?_⟩
    rw [if_neg (not_not.mpr rfl)]
    rw [if_neg (not_not.mpr hsets)]
    rfl

/-- **The rows of a table are checked one by one**: their labels count them, and each has one set
for each column. -/
theorem checkRows_eq_ok {text : Text} {columns : List Symbol} {rows : List Row}
    (hrows : ∀ r ∈ rows, IsNumeral r.label) {es : List (List (Value × Value))} :
    ((rows.zip (rows.map fun r => r.sets.map (·.map value))).zipIdx.mapM fun p =>
        checkRow text columns p.2 p.1.1 p.1.2) = .ok es ↔
      (∀ (i : Nat) r, rows[i]? = some r → r.label.length ≤ Text.numeralLimit ∧
        value r.label = i ∧ r.sets.length = columns.length) ∧
      (rows.zipIdx.map fun p =>
        (rowMoves p.2 columns (p.1.sets.map (·.map value))).map MoveTable.entry) = es := by
  rw [← List.map_prod_left_eq_zip, List.zipIdx_map, List.mapM_map]
  have hrow : ∀ p ∈ rows.zipIdx, ∀ es,
      checkRow text columns p.2 p.1 (p.1.sets.map (·.map value)) = .ok es ↔
      (p.1.label.length ≤ Text.numeralLimit ∧ value p.1.label = p.2 ∧
        p.1.sets.length = columns.length) ∧
        (rowMoves p.2 columns (p.1.sets.map (·.map value))).map MoveTable.entry = es := by
    intro p hp es
    rw [checkRow_eq_ok (hrows p.1 (List.fst_mem_of_mem_zipIdx hp)), List.length_map]
  refine (mapM_eq_ok_iff_forall_and_map_eq hrow).trans (and_congr_left fun _ => ?_)
  exact ⟨fun h i r hr => h (r, i) (List.mem_zipIdx_iff_getElem?.mpr hr),
    fun h p hp => h p.2 p.1 (List.mem_zipIdx_iff_getElem?.mp hp)⟩

/-- The moves that all rows list. -/
def Description.moves (d : Description) : List MoveTable.Listed :=
  d.rows.zipIdx.flatMap fun p =>
    rowMoves p.2 (d.symbols ++ [epsilonSign]) (p.1.2.map (·.map value))

/-- The entries of all rows are those of the moves of the description. -/
theorem flatten_rowMoves (l : Layout) :
    (l.rows.zipIdx.map fun p => (rowMoves p.2 (l.description.symbols ++ [epsilonSign])
      (p.1.sets.map (·.map value))).map MoveTable.entry).flatten =
      l.description.moves.map MoveTable.entry := by
  rw [← List.flatMap_def, Description.moves, List.map_flatMap, description, List.zipIdx_map,
    List.flatMap_map]
  rfl

theorem forall_rows_iff {l : Layout} {P : Nat → Digits × List (List Digits) → Prop} :
    (∀ (i : Nat) r, l.description.rows[i]? = some r → P i r) ↔
      ∀ (i : Nat) r, l.rows[i]? = some r → P i (r.label, r.sets) := by
  simp only [description, List.getElem?_map, Option.map_eq_some_iff, forall_exists_index, and_imp,
    forall_apply_eq_imp_iff₂]

/-- A description is short if all its parts are, the labels of its rows among them. -/
theorem short_of_parts {l : Layout} (hdeclared : l.declared.length ≤ Text.numeralLimit)
    (hinitial : l.initial.length ≤ Text.numeralLimit)
    (haccepting : ∀ ds ∈ l.accepting, ds.length ≤ Text.numeralLimit)
    (hsets : ∀ r ∈ l.rows, ∀ ds ∈ r.sets.flatten, ds.length ≤ Text.numeralLimit)
    (hlabels : ∀ (i : Nat) r, l.rows[i]? = some r → r.label.length ≤ Text.numeralLimit) :
    l.description.Short := by
  refine Description.forall_mem_numerals.mpr ⟨hdeclared, hinitial, haccepting, ?_⟩
  refine List.forall_mem_map.mpr fun r hr => ⟨?_, hsets r hr⟩
  obtain ⟨i, hi⟩ := List.mem_iff_getElem?.mp hr
  exact hlabels i r hi

/-- **The automaton that is made of a description**: from its moves, if its rows are in order. -/
theorem toNfa_eq_ok {l : Layout} {text : Text} {N : Nfa} {d : Description}
    (hd : l.description = d) (hds : ∀ ds ∈ d.numerals, IsNumeral ds) :
    l.toNfa text = .ok N ↔ d.Short ∧ (∀ a ∈ d.symbols, a ≠ emptyMoveWord ∧ a ≠ epsilonSign) ∧
      value d.declared = d.rows.length ∧
      (∀ (i : Nat) r, d.rows[i]? = some r → value r.1 = i ∧ r.2.length = d.symbols.length + 1) ∧
      (MoveTable.ofEntries (d.moves.map MoveTable.entry) >>= fun table =>
        Nfa.ofTable (.int (value d.declared)) (.list (d.symbols.map .text)) table
          (.int (value d.initial))
          (.list (d.accepting.map fun ds => .int (value ds)))) = .ok N := by
  subst hd
  obtain ⟨hdeclared, hinitial, haccepting, hrows⟩ := Description.forall_mem_numerals.mp hds
  rw [description, List.forall_mem_map] at hrows
  have hcount : value l.description.declared = l.description.rows.length ↔
      ¬ l.rows.length ≠ value l.description.declared := by
    rw [not_not, eq_comm, description, List.length_map]
  have hlength : (l.description.symbols ++ [epsilonSign]).length =
      l.description.symbols.length + 1 :=
    List.length_append
  have hints : ((l.accepting.map value).map fun (n : Nat) => Value.int n) =
      l.description.accepting.map fun ds => .int (value ds) := List.map_map
  rw [forall_rows_iff, hcount, ← hlength, ← flatten_rowMoves, ← hints]
  unfold toNfa
  rw [bind_eq_ok]
  constructor
  · rintro ⟨n, hn, h⟩
    obtain ⟨as, has, h⟩ := bind_eq_ok.mp h
    obtain ⟨sets, hsets, h⟩ := bind_eq_ok.mp h
    obtain ⟨q, hq, h⟩ := bind_eq_ok.mp h
    obtain ⟨F, hF, h⟩ := bind_eq_ok.mp h
    obtain ⟨hshortn, rfl⟩ := (number_eq_ok hdeclared).mp hn
    obtain ⟨hne, rfl⟩ := checkSymbols_eq_ok.mp has
    obtain ⟨hshorts, rfl⟩ := (numberRows_eq_ok fun r hr => (hrows r hr).2).mp hsets
    obtain ⟨hshortq, rfl⟩ := (number_eq_ok hinitial).mp hq
    obtain ⟨hshortF, rfl⟩ := (mapM_number_eq_ok haccepting).mp hF
    split at h
    · exact nomatch h
    · rename_i hcount
      obtain ⟨es, hes, h⟩ := bind_eq_ok.mp h
      obtain ⟨hlines, rfl⟩ := (checkRows_eq_ok fun r hr => (hrows r hr).1).mp hes
      exact ⟨short_of_parts hshortn hshortq hshortF hshorts fun i r hr => (hlines i r hr).1, hne,
        hcount, fun i r hr => (hlines i r hr).2, h⟩
  · rintro ⟨hshort, hne, hcount, hlines, h⟩
    obtain ⟨hshortn, hshortq, hshortF, hshorts⟩ := Description.forall_mem_numerals.mp hshort
    rw [description, List.forall_mem_map] at hshorts
    refine ⟨_, (number_eq_ok hdeclared).mpr ⟨hshortn, rfl⟩, ?_⟩
    refine bind_eq_ok.mpr ⟨_, checkSymbols_eq_ok.mpr ⟨hne, rfl⟩, ?_⟩
    refine bind_eq_ok.mpr ⟨_, (numberRows_eq_ok fun r hr => (hrows r hr).2).mpr
      ⟨fun r hr => (hshorts r hr).2, rfl⟩, ?_⟩
    refine bind_eq_ok.mpr ⟨_, (number_eq_ok hinitial).mpr ⟨hshortq, rfl⟩, ?_⟩
    refine bind_eq_ok.mpr ⟨_, (mapM_number_eq_ok haccepting).mpr ⟨hshortF, rfl⟩, ?_⟩
    rw [if_neg hcount]
    refine bind_eq_ok.mpr ⟨_, (checkRows_eq_ok fun r hr => (hrows r hr).1).mpr ⟨?_, rfl⟩, h⟩
    exact fun i r hi => ⟨(hshorts r (List.mem_of_getElem? hi)).1, hlines i r hi⟩

end Layout

end FiniteAutomata
