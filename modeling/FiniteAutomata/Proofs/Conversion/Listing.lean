import FiniteAutomata.Proofs.Conversion.Drawing
import FiniteAutomata.Proofs.Minimized.Completion
import FiniteAutomata.Proofs.Text.Table

/-!
# Proofs/Conversion/Listing — what the listing of an automaton tells

The listing of an automaton is its table of moves with the start state and the accepting states
below it; that of a minimized automaton goes on with the table of the classes of states. All cells
are numbers, numbers with a colon, or the sign of a missing move, so they are words, and the tables
can be read back. Below them the first colon after the names of the accepting states ends these, and
the sign for no accepting state is no number. So a listing tells its rows and accepting states and
where it ends (`drawMoves_append_inj`), and automata over the same alphabet are listed alike only if
nothing tells them apart that a listing shows (`Dfa.listings_eq_iff`).
-/

namespace FiniteAutomata

open Text

/-! ## Numbers as words -/

theorem isWord_spell (n : Nat) : IsWord (spell n) := by
  have hmarks : ∀ c ∈ partingMarks, c.isDigit = false :=
    List.forall_iff_forall_mem.mp (by decide)
  exact fun c hc hmark => notMem_spell (hmarks c hmark) n hc

theorem spell_ne_emptySetSign (n : Nat) : spell n ≠ emptySetSign := fun h =>
  notMem_spell (c := .char 'Ø') (by decide) n (h ▸ by decide)

/-- The text of a target of a move, be it missing or not. -/
def moveName (o : Option Nat) : Text := targetName (o.map Int.ofNat)

theorem isWord_moveName (o : Option Nat) : IsWord (moveName o) := by
  cases o with
  | none => decide
  | some n => exact isWord_spell n

/-- **The sign of a missing move is no number**, and numbers are told apart. -/
theorem moveName_injective : Function.Injective moveName := by
  intro o o' h
  cases o with
  | none =>
    cases o' with
    | none => rfl
    | some n => exact absurd h.symm (spell_ne_emptySetSign n)
  | some m =>
    cases o' with
    | none => exact absurd h (spell_ne_emptySetSign m)
    | some n => exact congrArg some (spell_injective h)

/-! ## The accepting states below a table -/

/-- What is listed as accepting states: their names, or the sign that there is none. -/
def acceptingNames (l : List Nat) : List Text :=
  if l = [] then [emptySetSign] else l.map spell

theorem acceptingNames_ne_nil (l : List Nat) : acceptingNames l ≠ [] := by
  rw [acceptingNames]
  split
  · exact List.cons_ne_nil _ _
  · rename_i h
    exact mt List.map_eq_nil_iff.mp h

theorem notMem_acceptingNames {c : CodePoint} (hc : c.isDigit = false) (hsign : c ≠ .char 'Ø')
    (l : List Nat) : ∀ s ∈ acceptingNames l, c ∉ s := by
  rw [acceptingNames]
  split
  · exact List.forall_mem_singleton.mpr (mt List.mem_singleton.mp hsign)
  · exact List.forall_mem_map.mpr fun n _ => notMem_spell hc n

theorem acceptingNames_injective : Function.Injective acceptingNames := by
  have hsign : ∀ {l : List Nat}, [emptySetSign] ≠ l.map spell := fun {l} h => by
    obtain ⟨n, _, hn⟩ := List.mem_map.mp (h ▸ List.mem_singleton_self emptySetSign)
    exact spell_ne_emptySetSign n hn
  intro l m h
  rw [acceptingNames, acceptingNames] at h
  by_cases hl : l = []
  · by_cases hm : m = []
    · exact hl.trans hm.symm
    · rw [if_pos hl, if_neg hm] at h
      exact absurd h hsign
  · by_cases hm : m = []
    · rw [if_neg hl, if_pos hm] at h
      exact absurd h.symm hsign
    · rw [if_neg hl, if_neg hm] at h
      exact List.map_injective_iff.mpr spell_injective h

theorem commaList_acceptingNames (l : List Nat) :
    (if (commaList (l.map spell)).isEmpty then emptySetSign else commaList (l.map spell)) =
      commaList (acceptingNames l) := by
  rw [acceptingNames]
  by_cases hl : l = []
  · rw [if_pos hl, hl]
    rfl
  · rw [if_neg hl, if_neg]
    intro hempty
    have hcomma : ∀ s ∈ l.map spell, .char ',' ∉ s :=
      List.forall_mem_map.mpr fun n _ => notMem_spell (by decide) n
    have hnames : l.map spell = [[]] := intercalate_inj (mt List.map_eq_nil_iff.mp hl)
      (List.cons_ne_nil _ _) hcomma (List.forall_mem_singleton.mpr List.not_mem_nil)
      ((List.isEmpty_iff.mp hempty).trans List.intercalate_singleton.symm)
    obtain ⟨n, _, hn⟩ := List.mem_map.mp (hnames ▸ List.mem_singleton_self [])
    exact spell_ne_nil n hn

/-- **What stands below a table tells the accepting states** and what follows. -/
theorem startAndAccepting_append_inj {start : Text} {l m : List Nat} {r r' : Text}
    (h : startAndAccepting start (l.map spell) ++ r =
      startAndAccepting start (m.map spell) ++ r') : l = m ∧ r = r' := by
  have hcolon : ∀ k, .char ':' ∉ commaList (acceptingNames k) := fun k =>
    notMem_intercalate (by decide) (notMem_acceptingNames (by decide) (by decide) k)
  have hcomma : ∀ k, ∀ s ∈ acceptingNames k, .char ',' ∉ s :=
    notMem_acceptingNames (by decide) (by decide)
  have hend : (": Accepting State(s)" : Text) = .char ':' :: (" Accepting State(s)" : Text) := rfl
  simp only [startAndAccepting, commaList_acceptingNames, List.append_assoc,
    hend, List.cons_append] at h
  obtain ⟨hnames, h⟩ := append_cons_inj (hcolon l) (hcolon m)
    (List.append_cancel_left (List.append_cancel_left h))
  refine ⟨acceptingNames_injective ?_, List.append_cancel_left h⟩
  exact intercalate_inj (acceptingNames_ne_nil l) (acceptingNames_ne_nil m) (hcomma l)
    (hcomma m) hnames

/-! ## Tables of moves -/

/-- What is drawn of rows that are there is the table as text. -/
theorem drawTable_ok_eq_ok_iff {columns : List Text} {rightFirst : Bool}
    {rows : List (List Text)} {s : Text} : drawTable columns rightFirst (.ok rows) = .ok s ↔
      (Table.mk columns rightFirst rows).render? = some s := by
  rw [drawTable]
  by_cases hcolumns : columns.Nodup
  · rw [if_pos hcolumns]
    cases hx : (Table.mk columns rightFirst rows).render? with
    | some x => simp [bind, Except.bind, hx, pure, Except.pure]
    | none => simp [bind, Except.bind, hx, throw, throwThe, MonadExceptOf.throw]
  · rw [if_neg hcolumns, Table.render?, if_neg hcolumns]
    simp only [reduceCtorEq]

/-- The table of moves of an automaton. -/
def movesTable (A : Alphabet) (rows : List (List (Option Nat))) : Table :=
  ⟨"Sigma" :: A.symbols, true,
    (rows.map (·.map moveName)).zipIdx.map fun p => (spell p.2 ++ ":") :: p.1⟩

variable {A : Alphabet} {rows rows' : List (List (Option Nat))}

/-- Its rows are rows of moves with their numbers before them. -/
theorem exists_of_mem_movesTable {cells : List Text} (h : cells ∈ (movesTable A rows).rows) :
    ∃ row ∈ rows, ∃ k : Nat, cells = (spell k ++ ":") :: row.map moveName := by
  obtain ⟨p, hp, rfl⟩ := List.mem_map.mp h
  obtain ⟨row, hrow, hmap⟩ := List.mem_map.mp (List.fst_mem_of_mem_zipIdx hp)
  exact ⟨row, hrow, p.2, by rw [hmap]⟩

theorem hasWords_movesTable (h : ∀ row ∈ rows, row.length = A.size) :
    (movesTable A rows).HasWords where
  columns_ne_nil := List.cons_ne_nil _ _
  length_eq := by
    intro cells hcells
    obtain ⟨row, hrow, k, rfl⟩ := exists_of_mem_movesTable hcells
    rw [List.length_cons, List.length_map, h row hrow]
    rfl
  isWord := by
    intro cells hcells
    obtain ⟨row, -, k, rfl⟩ := exists_of_mem_movesTable hcells
    have hnumber : IsWord (spell k ++ ":") := (isWord_spell k).append (by decide)
    exact List.forall_mem_cons.mpr
      ⟨hnumber, List.forall_mem_map.mpr fun o _ => isWord_moveName o⟩

/-- The rows of the table without their numbers are the moves. -/
theorem map_tail_movesTable (A : Alphabet) (rows : List (List (Option Nat))) :
    (movesTable A rows).rows.map List.tail = rows.map (·.map moveName) := by
  rw [movesTable, List.map_map]
  exact List.zipIdx_map_fst 0 _

/-- **A listing tells the moves and the accepting states**, and what follows it. -/
theorem drawMoves_append_inj {l m : List Nat} (h : ∀ row ∈ rows, row.length = A.size)
    (h' : ∀ row ∈ rows', row.length = A.size) {s t : Text}
    (hs : drawMoves A (.ok (rows.map (·.map moveName))) (.ok (l.map spell)) = .ok s)
    (ht : drawMoves A (.ok (rows'.map (·.map moveName))) (.ok (m.map spell)) = .ok t)
    {r r' : Text} (heq : s ++ r = t ++ r') :
    rows = rows' ∧ l = m ∧ r = r' := by
  obtain ⟨x, hx, hs⟩ := bind_eq_ok.mp hs
  obtain ⟨y, hy, ht⟩ := bind_eq_ok.mp ht
  have hx : (movesTable A rows).render? = some x := drawTable_ok_eq_ok_iff.mp hx
  have hy : (movesTable A rows').render? = some y := drawTable_ok_eq_ok_iff.mp hy
  have hs : x ++ "\n" ++ startAndAccepting "0" (l.map spell) = s := Except.ok.inj hs
  have ht : y ++ "\n" ++ startAndAccepting "0" (m.map spell) = t := Except.ok.inj ht
  rw [← hs, ← ht] at heq
  simp only [List.append_assoc] at heq
  obtain ⟨htable, heq⟩ := Table.render?_append_inj (hasWords_movesTable h) (hasWords_movesTable h')
    rfl rfl hx hy heq
  have hmoves : rows.map (·.map moveName) = rows'.map (·.map moveName) := by
    rw [← map_tail_movesTable A rows, htable, map_tail_movesTable]
  refine ⟨?_, startAndAccepting_append_inj (List.append_cancel_left heq)⟩
  exact List.map_injective_iff.mpr (List.map_injective_iff.mpr moveName_injective) hmoves

namespace Dfa

variable {σ τ : Type} {D : Dfa σ} {E : Dfa τ}

theorem allRows_eq_map (D : Dfa σ) : D.allRows =
    ((List.range D.size).map D.row).map (·.map fun o => o.map Int.ofNat) :=
  (List.map_map ..).symm

variable [Identity σ] [Identity τ]

theorem drawListing_eq (D : Dfa σ) : D.drawListing =
    drawMoves D.alphabet (.ok (((List.range D.size).map D.row).map (·.map moveName)))
      (.ok (D.acceptStates.map spell)) := by
  have hnames : D.allRows.map (·.map targetName) =
      ((List.range D.size).map D.row).map (·.map moveName) := by
    rw [allRows_eq_map, List.map_map]
    exact List.map_congr_left fun row _ => List.map_map ..
  rw [drawListing, hnames]

/-- **Automata over the same alphabet are listed alike if they have the same rows and accepting
states**, and only then. -/
theorem drawListing_eq_iff (halphabet : D.alphabet = E.alphabet) {s t : Text}
    (hs : D.drawListing = .ok s) (ht : E.drawListing = .ok t) :
    s = t ↔ D.allRows = E.allRows ∧ D.acceptStates = E.acceptStates := by
  have hlength : ∀ row ∈ (List.range D.size).map D.row, row.length = D.alphabet.size :=
    List.forall_mem_map.mpr fun _ _ => List.length_map _
  have hlength' : ∀ row ∈ (List.range E.size).map E.row, row.length = D.alphabet.size :=
    List.forall_mem_map.mpr fun _ _ => halphabet ▸ List.length_map _
  constructor
  · rintro rfl
    rw [drawListing_eq] at hs ht
    obtain ⟨hrows, haccept, -⟩ := drawMoves_append_inj hlength hlength' hs (halphabet ▸ ht)
      (rfl : s ++ [] = s ++ [])
    exact ⟨by rw [allRows_eq_map, hrows, allRows_eq_map], haccept⟩
  · rintro ⟨hrows, haccept⟩
    rw [drawListing, hrows, haccept, halphabet] at hs
    exact Except.ok.inj (hs.symm.trans ht)

end Dfa

attribute [ext] Minimized

namespace Minimized

variable {M M' : Minimized Nat}

/-- The targets of the classes in the order in which they are listed. -/
def targetRows (M : Minimized Nat) : List (List (Option Nat)) := M.rows.map (·.map (·.2))

theorem WellFormed.length_of_mem_targetRows (h : M.WellFormed) :
    ∀ row ∈ M.targetRows, row.length = M.alphabet.size := by
  refine List.forall_mem_map.mpr fun row hrow => ?_
  obtain ⟨t, -, rfl⟩ := h.row_eq row hrow
  rw [List.length_map, List.length_map]
  rfl

/-- **The rows are their targets**, under the symbols of the alphabet. -/
theorem WellFormed.rows_eq_zip (h : M.WellFormed) :
    M.rows = M.targetRows.map fun row => (M.alphabet.symbols.map Value.text).zip row := by
  rw [targetRows, List.map_map]
  refine (List.map_id M.rows).symm.trans (List.map_congr_left fun row hrow => ?_)
  obtain ⟨t, -, rfl⟩ := h.row_eq row hrow
  rw [Function.comp_apply, List.map_map, id, ← List.zip_map']
  rfl

/-- **No target of a class is missing from its row.** -/
theorem WellFormed.allRows_eq (h : M.WellFormed) : M.allRows = .ok M.targetRows := by
  choose! t _ hquery _ using fun (c : Nat) (hc : c < M.classCount) => h.exists_targets hc
  rw [allRows_eq_map hquery, targetRows, h.rows_eq_map hquery, List.map_map]
  refine congrArg _ (List.map_congr_left fun c _ => ?_)
  rw [Function.comp_apply, List.map_map]
  rfl

theorem targetText_eq_moveName (o : Option Nat) : targetText o = moveName o := by
  cases o <;> rfl

theorem WellFormed.targetTexts_eq (h : M.WellFormed) :
    M.targetTexts = .ok (M.targetRows.map (·.map moveName)) := by
  rw [targetTexts, h.allRows_eq]
  have hnames : (targetText : Option Nat → Text) = moveName := funext targetText_eq_moveName
  exact congrArg (fun f => Except.ok (M.targetRows.map (List.map f))) hnames

/-- The table of the classes of states. -/
def classesTable (M : Minimized Nat) : Table :=
  ⟨["DFA STATE", "MINIMIZED STATE"], false,
    M.classAssignment.zipIdx.map fun p => [spell p.2, spell p.1]⟩

theorem hasWords_classesTable (M : Minimized Nat) : M.classesTable.HasWords where
  columns_ne_nil := List.cons_ne_nil _ _
  length_eq := by
    have hcolumns : M.classesTable.columns.length = 2 := rfl
    rw [hcolumns]
    exact List.forall_mem_map.mpr fun _ _ => rfl
  isWord := List.forall_mem_map.mpr fun p _ => List.forall_mem_cons.mpr
    ⟨isWord_spell p.2, List.forall_mem_singleton.mpr (isWord_spell p.1)⟩

theorem map_getLast_classesTable (M : Minimized Nat) :
    M.classesTable.rows.map (·.getLastD []) = M.classAssignment.map spell := by
  rw [classesTable, List.map_map]
  conv_rhs => rw [← List.zipIdx_map_fst 0 M.classAssignment, List.map_map]
  rfl

/-- A listing with the classes of states below it. -/
theorem WellFormed.drawListing_true_eq (h : M.WellFormed) : M.drawListing true = do
    let listing ← drawMoves M.alphabet (.ok (M.targetRows.map (·.map moveName)))
      (.ok (M.accepting.map spell))
    let classes ← drawTable M.classesTable.columns false (.ok M.classesTable.rows)
    return listing ++ "\n" ++ classes := by
  have haccepting : (do return (← M.acceptStates).map Value.plain) =
      (.ok (M.accepting.map spell) : Except Error (List Text)) := by
    rw [h.acceptStates_eq]
    exact congrArg Except.ok (List.map_map ..)
  rw [drawListing, h.targetTexts_eq, haccepting]
  rfl

/-- **Its listing with the classes of states tells all there is to an automaton of classes.** -/
theorem WellFormed.eq_of_drawListing_eq (h : M.WellFormed) (h' : M'.WellFormed)
    (halphabet : M.alphabet = M'.alphabet) {s : Text} (hs : M.drawListing true = .ok s)
    (hs' : M'.drawListing true = .ok s) : M = M' := by
  rw [h.drawListing_true_eq] at hs
  rw [h'.drawListing_true_eq, ← halphabet] at hs'
  obtain ⟨x, hx, hs⟩ := bind_eq_ok.mp hs
  obtain ⟨y, hy, hs⟩ := bind_eq_ok.mp hs
  obtain ⟨x', hx', hs'⟩ := bind_eq_ok.mp hs'
  obtain ⟨y', hy', hs'⟩ := bind_eq_ok.mp hs'
  have heq : x ++ "\n" ++ y = x' ++ "\n" ++ y' :=
    (Except.ok.inj hs).trans (Except.ok.inj hs').symm
  simp only [List.append_assoc] at heq
  obtain ⟨hrows, haccepting, heq⟩ := drawMoves_append_inj h.length_of_mem_targetRows
    (halphabet ▸ h'.length_of_mem_targetRows) hx hx' heq
  replace heq : y ++ [] = y' ++ [] :=
    congrArg (· ++ []) (List.append_cancel_left heq)
  obtain ⟨htable, -⟩ := Table.render?_append_inj M.hasWords_classesTable M'.hasWords_classesTable
    rfl rfl (drawTable_ok_eq_ok_iff.mp hy) (drawTable_ok_eq_ok_iff.mp hy') heq
  have hclasses : M.classAssignment = M'.classAssignment := by
    refine List.map_injective_iff.mpr spell_injective ?_
    rw [← map_getLast_classesTable, htable, map_getLast_classesTable]
  have hall : M.rows = M'.rows := by rw [h.rows_eq_zip, hrows, halphabet, ← h'.rows_eq_zip]
  exact Minimized.ext halphabet hclasses hall haccepting

/-- What can be asked of two automata of classes tells them apart. -/
theorem WellFormed.eq_iff (h : M.WellFormed) (h' : M'.WellFormed)
    (halphabet : M.alphabet = M'.alphabet) : M = M' ↔ M.rows = M'.rows ∧
      M.acceptStates = M'.acceptStates ∧ M.classAssignment = M'.classAssignment := by
  have hinjective : Function.Injective (ClassName.toValue : Nat → Value) := fun _ _ heq =>
    Int.ofNat.inj (Value.int.inj heq)
  rw [h.acceptStates_eq, h'.acceptStates_eq, Except.ok.injEq,
    (List.map_injective_iff.mpr hinjective).eq_iff]
  constructor
  · rintro rfl
    exact ⟨rfl, rfl, rfl⟩
  · rintro ⟨hrows, haccepting, hclasses⟩
    exact Minimized.ext halphabet hclasses hrows haccepting

end Minimized

namespace Dfa

/-- **Listings lose nothing.** Two automata over the same alphabet, none of whose symbols is the
title of the first column, are listed, and alike exactly if they have the same rows, with the same
moves missing, and the same accepting states. What they are minimized to is listed with the classes
of states, and alike exactly if it has the same rows, accepting classes and classes of states. -/
theorem listings_eq_iff {σ τ : Type} [Identity σ] [Identity τ] {D : Dfa σ} {E : Dfa τ}
    (halphabet : D.alphabet = E.alphabet) (htitle : ("Sigma" : Symbol) ∉ D.alphabet) :
    (∃ s t, D.drawListing = .ok s ∧ E.drawListing = .ok t ∧
      (s = t ↔ D.allRows = E.allRows ∧ D.acceptStates = E.acceptStates)) ∧
    ∃ s t, D.minimize.drawListing true = .ok s ∧ E.minimize.drawListing true = .ok t ∧
      (s = t ↔ D.minimize.rows = E.minimize.rows ∧
        D.minimize.acceptStates = E.minimize.acceptStates ∧
        D.minimize.classAssignment = E.minimize.classAssignment) := by
  have htitle' : ("Sigma" : Symbol) ∉ E.alphabet := halphabet ▸ htitle
  have hD := D.wellFormed_minimize
  have hE := E.wellFormed_minimize
  constructor
  · obtain ⟨s, hs⟩ := exists_drawListing_iff.mpr htitle
    obtain ⟨t, ht⟩ := exists_drawListing_iff.mpr htitle'
    exact ⟨s, t, hs, ht, drawListing_eq_iff halphabet hs ht⟩
  · obtain ⟨s, hs⟩ := (hD.exists_drawListing_iff true).mpr htitle
    obtain ⟨t, ht⟩ := (hE.exists_drawListing_iff true).mpr htitle'
    rw [← hD.eq_iff hE halphabet]
    refine ⟨s, t, hs, ht, ?_, fun heq => ?_⟩
    · rintro rfl
      exact hD.eq_of_drawListing_eq hE halphabet hs ht
    · rw [heq] at hs
      exact Except.ok.inj (hs.symm.trans ht)

/-- One state without moves is not listed like one that leads to a sink, nor are the automata that
they are minimized to. -/
theorem listings_ne_halt : halt.alphabet = haltThenLoop.alphabet ∧
    ("Sigma" : Symbol) ∉ halt.alphabet ∧
    (∃ s t, halt.drawListing = .ok s ∧ haltThenLoop.drawListing = .ok t ∧ s ≠ t) ∧
    ∃ s t, halt.minimize.drawListing true = .ok s ∧
      haltThenLoop.minimize.drawListing true = .ok t ∧ s ≠ t := by
  have htitle : ("Sigma" : Symbol) ∉ halt.alphabet := by decide
  have hclasses : halt.minimize.classAssignment.length ≠
      haltThenLoop.minimize.classAssignment.length := by
    rw [classAssignment_minimize, classAssignment_minimize, List.length_map, List.length_map]
    decide
  obtain ⟨⟨s, t, hs, ht, heq⟩, x, y, hx, hy, hmin⟩ :=
    listings_eq_iff (D := halt) (E := haltThenLoop) rfl htitle
  refine ⟨rfl, htitle, ⟨s, t, hs, ht, fun h => ?_⟩, x, y, hx, hy, fun h => ?_⟩
  · exact absurd (heq.mp h).1 (by decide)
  · exact hclasses (congrArg List.length (hmin.mp h).2.2)

end Dfa

end FiniteAutomata
