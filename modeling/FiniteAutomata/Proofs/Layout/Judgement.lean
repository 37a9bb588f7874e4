import FiniteAutomata.Proofs.Layout.Places
import FiniteAutomata.Proofs.Layout.Refusal

/-!
# Proofs/Layout/Judgement — which fault of a description is reported, and at which place

A description may have several faults. They are looked for in one order: a symbol that is a name of
the empty move, the number of rows, then row by row the label and the number of sets, and last what
the automaton itself must fulfil. `Description.Judged` says this of what comes of a text, with the
place that is reported, and `Nfa.ofLayout_judged` that it is so for each text that spells a
description with numerals that can be read.
-/

namespace FiniteAutomata

/-- **A description is refused at a place**, or at an unknown one, with this error. -/
structure RefusedAt (outcome : Except Error Nfa) (e : Error) (p : Position) : Prop where
  eq_error : outcome = .error e
  category_eq : e.category = .description
  place_eq : e.place = p

namespace Layout

/-- The symbol is a name of the empty move. -/
def IsReserved (a : Symbol) : Prop := a = "lambda" ∨ a = "ε"

namespace Description

variable (d : Description)

/-- The row is labelled with its number, and has one set for each symbol and one for the empty
move. -/
def RowFits (i : Nat) (r : Digits × List (List Digits)) : Prop :=
  value r.1 = i ∧ r.2.length = d.symbols.length + 1

/-- What is said of a row that does not fit: what is wrong with its label, if anything is. -/
def rowFault (i : Nat) (r : Digits × List (List Digits)) (p : Position) : Error :=
  if value r.1 ≠ i then .rowLabel i (r.1) p
  else .setCount i r.2.length (d.symbols.length + 1) p

/-- No automaton has such symbols and states: a symbol is repeated, or there is no such state. -/
def IsFaulty : Prop :=
  ¬ d.symbols.Nodup ∨ ∃ ds ∈ d.states, value d.declared ≤ value ds

/-- **What comes of a text that spells the description**: each fault is reported where there is none
of those before it, and without a fault there is an automaton. The place that is reported is the end
of the one beginning of the text after which the symbol, or the label of the row, stands. -/
inductive Judged (text : Text) (outcome : Except Error Nfa) : Prop
  | reserved {as bs : List Symbol} {a : Symbol} {before : Text}
      (hsplit : d.symbols = as ++ a :: bs) (has : ∀ b ∈ as, ¬ IsReserved b) (ha : IsReserved a)
      (hplace : ∀ u, d.SymbolAfter as a text u ↔ u = before)
      (h : RefusedAt outcome (.reservedColumn a (positionAfter before)) (positionAfter before))
  | rowCount (hsymbols : ∀ a ∈ d.symbols, ¬ IsReserved a)
      (hcount : value d.declared ≠ d.rows.length)
      (h : RefusedAt outcome (.rowCount (value d.declared) d.rows.length) .unknown)
  | row {rs rs' : List (Digits × List (List Digits))} {r : Digits × List (List Digits)}
      {before : Text} (hsymbols : ∀ a ∈ d.symbols, ¬ IsReserved a)
      (hcount : value d.declared = d.rows.length) (hsplit : d.rows = rs ++ r :: rs')
      (hrs : ∀ (i : Nat) r, rs[i]? = some r → d.RowFits i r) (hr : ¬ d.RowFits rs.length r)
      (hplace : ∀ u, d.LabelAfter rs r.1 text u ↔ u = before)
      (h : RefusedAt outcome (d.rowFault rs.length r (positionAfter before)) (positionAfter before))
  | configuration {e : Error} (hsymbols : ∀ a ∈ d.symbols, ¬ IsReserved a)
      (hcount : value d.declared = d.rows.length)
      (hrows : ∀ (i : Nat) r, d.rows[i]? = some r → d.RowFits i r) (hfaulty : d.IsFaulty)
      (h : outcome = .error e) (he : e.category = .configuration)
  | automaton {N : Nfa} (hsymbols : ∀ a ∈ d.symbols, ¬ IsReserved a)
      (hcount : value d.declared = d.rows.length)
      (hrows : ∀ (i : Nat) r, d.rows[i]? = some r → d.RowFits i r) (hfaulty : ¬ d.IsFaulty)
      (h : outcome = .ok N)

theorem refusedAt_rowFault {i : Nat} {r : Digits × List (List Digits)} {p : Position} :
    RefusedAt (.error (d.rowFault i r p)) (d.rowFault i r p) p := by
  refine ⟨rfl, ?_, ?_⟩ <;> unfold rowFault <;> split <;> rfl

/-- **The parts of a description agree** if it has none of the faults. -/
theorem coherent_iff : d.Coherent ↔ (∀ a ∈ d.symbols, ¬ IsReserved a) ∧
    value d.declared = d.rows.length ∧
    (∀ (i : Nat) r, d.rows[i]? = some r → d.RowFits i r) ∧ ¬ d.IsFaulty := by
  simp only [IsFaulty, IsReserved, not_or, not_not, not_exists, not_and, Nat.not_le]
  constructor
  · intro hd
    exact ⟨hd.symbols_ne, hd.declared_eq, fun i r hr =>
      ⟨hd.label_eq i r hr, hd.sets_length r (List.mem_of_getElem? hr)⟩, hd.symbols_nodup,
      fun ds hds => hd.declared_eq ▸ hd.states_lt ds hds⟩
  · rintro ⟨hsymbols, hcount, hrows, hnodup, hstates⟩
    refine ⟨hcount, fun i r hr => (hrows i r hr).1, fun r hr => ?_, hnodup, hsymbols,
      fun ds hds => hcount ▸ hstates ds hds⟩
    obtain ⟨i, hi⟩ := List.mem_iff_getElem?.mp hr
    exact (hrows i r hi).2

end Description

variable {text : Text} {l : Layout}

/-! ## The checks of a short description -/

/-- A row whose label can be read is looked at in two steps. -/
theorem checkRow_of_short {columns : List Symbol} {i : Nat} {r : Row} (hr : IsNumeral r.label)
    (hshort : r.label.length ≤ Text.numeralLimit) (sets : List (List Nat)) :
    checkRow text columns i r sets =
      if value r.label ≠ i then
        .error (.rowLabel i (r.label) (positionOf text r.labelRest))
      else if sets.length ≠ columns.length then
        .error (.setCount i sets.length columns.length (positionOf text r.labelRest))
      else .ok (rowEntries i columns sets) := by
  rw [checkRow, (number_eq_ok hr).mpr ⟨hshort, rfl⟩]
  rfl

/-- **A row is refused exactly if it does not fit**, for its label first. -/
theorem checkRow_eq_error_iff {d : Description} {i : Nat} {r : Row} {e : Error}
    (hr : IsNumeral r.label) (hshort : r.label.length ≤ Text.numeralLimit) :
    checkRow text (d.symbols ++ [epsilonSign]) i r (r.sets.map (·.map value)) = .error e ↔
      ¬ d.RowFits i r.description ∧
        d.rowFault i r.description (positionOf text r.labelRest) = e := by
  have hcolumns : (d.symbols ++ [epsilonSign]).length = d.symbols.length + 1 := List.length_append
  rw [checkRow_of_short hr hshort, List.length_map, hcolumns]
  simp only [Description.RowFits, Description.rowFault, Row.description]
  by_cases hlabel : value r.label = i
  · by_cases hsets : r.sets.length = d.symbols.length + 1
    · simp [hlabel, hsets]
    · simp [hlabel, hsets]
  · simp [hlabel]

/-- **A description whose numerals can be read** is checked in three steps, before the automaton is
made. -/
theorem toNfa_of_short (hds : ∀ ds ∈ l.description.numerals, IsNumeral ds)
    (hshort : l.description.Short) :
    l.toNfa text = checkSymbols text l.symbols >>= fun symbols =>
      if l.rows.length ≠ value l.declared then
        .error (.rowCount (value l.declared) l.rows.length)
      else ((l.rows.zip (l.rows.map fun r => r.sets.map (·.map value))).zipIdx.mapM fun p =>
        checkRow text (symbols ++ [epsilonSign]) p.2 p.1.1 p.1.2) >>= fun entries =>
          MoveTable.ofEntries entries.flatten >>= fun table =>
            Nfa.ofTable (.int (value l.declared)) (.list (symbols.map .text)) table
              (.int (value l.initial))
              (.list ((l.accepting.map value).map fun (n : Nat) => .int n)) := by
  obtain ⟨hdeclared, hinitial, haccepting, hrows⟩ := Description.forall_mem_numerals.mp hds
  obtain ⟨hshortn, hshortq, hshortF, hshorts⟩ := Description.forall_mem_numerals.mp hshort
  rw [description, List.forall_mem_map] at hrows hshorts
  have hdeclared : number "header" l.declared = .ok (value l.declared) :=
    (number_eq_ok hdeclared).mpr ⟨hshortn, rfl⟩
  have hinitial : number "initial" l.initial = .ok (value l.initial) :=
    (number_eq_ok hinitial).mpr ⟨hshortq, rfl⟩
  have haccepting : l.accepting.mapM (number "accepting") = .ok (l.accepting.map value) :=
    (mapM_number_eq_ok haccepting).mpr ⟨hshortF, rfl⟩
  have hsets := (numberRows_eq_ok fun r hr => (hrows r hr).2).mpr
    ⟨fun r hr => (hshorts r hr).2, rfl⟩
  rw [toNfa, hdeclared, hsets, hinitial, haccepting]
  refine congrArg (checkSymbols text l.symbols >>= ·) (funext fun symbols => ?_)
  change (if _ then _ else _) = _
  split <;> rfl

/-! ## What is reported -/

/-- **The first symbol that is a name of the empty move is reported where it stands.** -/
theorem exists_of_checkSymbols_eq_error (hread : read text = .ok l) {e : Error}
    (h : checkSymbols text l.symbols = .error e) :
    ∃ as a bs before, l.description.symbols = as ++ a :: bs ∧ (∀ b ∈ as, ¬ IsReserved b) ∧
      IsReserved a ∧ (∀ u, l.description.SymbolAfter as a text u ↔ u = before) ∧
      e = .reservedColumn a (positionAfter before) := by
  unfold checkSymbols at h
  split at h
  · rename_i a n hfind
    obtain ⟨ha, ps, qs, hl, hps⟩ := List.find?_eq_some_iff_append.mp hfind
    obtain ⟨before, hplace, hposition⟩ := exists_symbolAfter_iff hread hl
    refine ⟨ps.map (·.1), a, qs.map (·.1), before, ?_, List.forall_mem_map.mpr fun q hq => ?_, ?_,
      hplace, hposition ▸ (Except.error.inj h).symm⟩
    · rw [description, hl, List.map_append, List.map_cons]
    · simpa [IsReserved, emptyMoveWord, epsilonSign] using hps q hq
    · simpa [IsReserved, emptyMoveWord, epsilonSign] using ha
  · cases h

/-- **The first row that does not fit is reported where its label stands.** -/
theorem exists_of_checkRows_eq_error (hread : read text = .ok l) (hshort : l.description.Short)
    {e : Error} (h : ((l.rows.zip (l.rows.map fun r => r.sets.map (·.map value))).zipIdx.mapM
      fun p => checkRow text (l.description.symbols ++ [epsilonSign]) p.2 p.1.1 p.1.2) =
        .error e) :
    ∃ rs r rs' before, l.description.rows = rs ++ r :: rs' ∧
      (∀ (i : Nat) r, rs[i]? = some r → l.description.RowFits i r) ∧
      ¬ l.description.RowFits rs.length r ∧
      (∀ u, l.description.LabelAfter rs r.1 text u ↔ u = before) ∧
      e = l.description.rowFault rs.length r (positionAfter before) := by
  have hds := (Grammar.wellFormed_of_mem_texts (exists_read_eq_ok_iff.mp ⟨l, hread, rfl⟩)).1
  obtain ⟨-, -, -, hrows⟩ := Description.forall_mem_numerals.mp hds
  obtain ⟨-, -, -, hshorts⟩ := Description.forall_mem_numerals.mp hshort
  rw [description, List.forall_mem_map] at hrows hshorts
  rw [← List.map_prod_left_eq_zip, List.zipIdx_map, List.mapM_map] at h
  -- the row is the first whose check fails
  obtain ⟨_, p, _, hsplit, hbefore, he⟩ := mapM_eq_error_iff.mp h
  obtain ⟨ls, _, hl, rfl, htail⟩ := List.zipIdx_eq_append_iff.mp hsplit
  obtain ⟨r, ls', rfl, rfl, -⟩ := List.zipIdx_eq_cons_iff.mp htail.symm
  have hmem : r ∈ l.rows := hl ▸ List.mem_append_right _ List.mem_cons_self
  obtain ⟨before, hplace, hposition⟩ := exists_labelAfter_iff hread hl
  have he : checkRow text (l.description.symbols ++ [epsilonSign]) ls.length r
    (r.sets.map (·.map value)) = .error e := Nat.zero_add ls.length ▸ he
  obtain ⟨hr, rfl⟩ := (checkRow_eq_error_iff (hrows r hmem).1 (hshorts r hmem).1).mp he
  have hlength : (ls.map Row.description).length = ls.length := List.length_map _
  refine ⟨ls.map Row.description, r.description, ls'.map Row.description, before, ?_, ?_, ?_,
    hplace, ?_⟩
  · rw [← List.map_cons, ← List.map_append, ← hl]
    rfl
  · intro i _ hi
    rw [List.getElem?_map] at hi
    obtain ⟨r', hr', rfl⟩ := Option.map_eq_some_iff.mp hi
    have hmem' : r' ∈ l.rows := hl ▸ List.mem_append_left _ (List.mem_of_getElem? hr')
    obtain ⟨_, hes⟩ := hbefore (r', i) (List.mem_zipIdx_iff_getElem?.mpr hr')
    by_contra hfits
    cases hes.symm.trans
      ((checkRow_eq_error_iff (hrows r' hmem').1 (hshorts r' hmem').1).mpr ⟨hfits, rfl⟩)
  · exact hlength ▸ hr
  · rw [hposition, hlength]

/-- **What comes of a description that has been read.** -/
theorem judged_of_read (hread : read text = .ok l) (hshort : l.description.Short) :
    l.description.Judged text (l.toNfa text) := by
  obtain ⟨hds, hsymbols⟩ :=
    Grammar.wellFormed_of_mem_texts (exists_read_eq_ok_iff.mp ⟨l, hread, rfl⟩)
  obtain ⟨-, -, -, hnumerals⟩ := Description.forall_mem_numerals.mp hds
  rw [description, List.forall_mem_map] at hnumerals
  cases houtcome : l.toNfa text with
  | ok N =>
    obtain ⟨-, hcoherent, -⟩ := describes_of_toNfa rfl hds houtcome
    obtain ⟨hsymbols, hcount, hrows, hfaulty⟩ := l.description.coherent_iff.mp hcoherent
    exact .automaton hsymbols hcount hrows hfaulty rfl
  | error e =>
    have hincoherent : ¬ l.description.Coherent := fun hcoherent => by
      obtain ⟨N, hN⟩ : ∃ N, l.toNfa text = .ok N :=
        hcoherent.exists_toNfa_eq_ok rfl hds hsymbols hshort
      cases houtcome.symm.trans hN
    rw [toNfa_of_short hds hshort] at houtcome
    obtain h | ⟨symbols, hchecked, h⟩ := bind_eq_error.mp houtcome
    · obtain ⟨as, a, bs, before, hsplit, has, ha, hplace, rfl⟩ :=
        exists_of_checkSymbols_eq_error hread h
      exact .reserved hsplit has ha hplace ⟨rfl, rfl, rfl⟩
    obtain ⟨hfree, rfl⟩ := checkSymbols_eq_ok.mp hchecked
    have hfree : ∀ a ∈ l.description.symbols, ¬ IsReserved a := fun a ha =>
      not_or.mpr (hfree a ha)
    have hlength : l.description.rows.length = l.rows.length := List.length_map _
    split at h
    · rename_i hcount
      obtain rfl := Except.error.inj h
      rw [← hlength] at hcount ⊢
      exact .rowCount hfree hcount.symm ⟨rfl, rfl, rfl⟩
    · rename_i hcount
      have hcount : l.description.rows.length = value l.description.declared :=
        hlength.trans (not_not.mp hcount)
      obtain h | ⟨es, hes, h⟩ := bind_eq_error.mp h
      · obtain ⟨rs, r, rs', before, hsplit, hrs, hr, hplace, rfl⟩ :=
          exists_of_checkRows_eq_error hread hshort h
        exact .row hfree hcount.symm hsplit hrs hr hplace (l.description.refusedAt_rowFault)
      · obtain ⟨hlines, rfl⟩ := (checkRows_eq_ok fun r hr => (hnumerals r hr).1).mp hes
        have hrows : ∀ (i : Nat) r, l.description.rows[i]? = some r →
            l.description.RowFits i r := forall_rows_iff.mpr fun i r hr =>
          ⟨(hlines i r hr).2.1, (hlines i r hr).2.2.trans List.length_append⟩
        refine .configuration hfree hcount.symm hrows ?_ rfl ?_
        · by_contra hfaulty
          exact hincoherent (l.description.coherent_iff.mpr ⟨hfree, hcount.symm, hrows, hfaulty⟩)
        · exact category_of_ofTable_rows_eq_error hds hshort hcount h

end Layout

/-- **A text that spells a description is judged by its first fault.** If its numerals can be read,
these are looked for in this order, and each is an error of its kind, at its place: the first symbol
that is a name of the empty move; a number of rows other than the declared one, which has no place;
the first row with another label than its number, or else with another number of sets than there are
columns; a repeated symbol or a state that there is not, which is no fault of the text. Without any
of them there is an automaton. -/
theorem Nfa.ofLayout_judged {text : Text} {d : Layout.Description}
    (hd : text ∈ Layout.Grammar.texts d) (hshort : d.Short) :
    d.Judged text (ofLayout text) := by
  obtain ⟨l, hread, rfl⟩ := Layout.exists_read_eq_ok_iff.mpr hd
  have htext : ofLayout text = l.toNfa text := by
    rw [ofLayout, hread]
    rfl
  exact htext ▸ Layout.judged_of_read hread hshort

/-- A description with several faults: its second row has another label and too few sets, a symbol
is repeated, and there is no state with the number of the start state. -/
def Layout.faulty : Description where
  declared := ['2']
  symbols := ["a", "a"]
  rows := [(['0'], [[['1']], [], []]), (['2'], [[['7']], []])]
  initial := ['9']
  accepting := []

def Layout.faultyText : Text :=
  "
|Q|: 2

Sigma: a  a
--
0: {1}{}{}

 	2: {7} {}
--
" ++
    "Initial State: 9
Accepting State(s):
"

theorem Nfa.ofLayout_judged_faulty :
    Layout.faultyText ∈ Layout.Grammar.texts Layout.faulty ∧ Layout.faulty.Short ∧
      Layout.faulty.Judged Layout.faultyText (ofLayout Layout.faultyText) ∧
      ofLayout Layout.faultyText = .error (.rowLabel 1 "2" ⟨8, 3⟩) := by
  have hspelled : Layout.faultyText ∈ Layout.Grammar.texts Layout.faulty :=
    Layout.exists_read_eq_ok_iff.mp ⟨_, rfl, rfl⟩
  have hshort : Layout.faulty.Short := by
    unfold Layout.Description.Short
    decide
  exact ⟨hspelled, hshort, ofLayout_judged hspelled hshort, rfl⟩

end FiniteAutomata
