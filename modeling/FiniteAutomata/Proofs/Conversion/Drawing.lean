import FiniteAutomata.Proofs.Conversion.Events
import FiniteAutomata.Proofs.Minimized.Live

/-!
# Proofs/Conversion/Drawing — which tables of an automaton can be drawn

The columns of a table are headed by titles of its own and by the symbols. A table is drawn exactly
if these headings differ and its rows can be worked out (`Dfa.exists_drawTable_iff`). The rows of an
automaton and of what it is converted to can be worked out, unless there are too many states to list
or numbers too long to be written; so which tables can be drawn depends on which titles are symbols
(`Nfa.convert_drawable`).
-/

namespace FiniteAutomata

/-! ## The table of an automaton -/

variable {m : Machine}

/-- **There is a list of the first states if there is room for it.** -/
theorem exists_listStates_iff {n : Nat} : (∃ l, m.listStates n = .ok l) ↔ n ≤ m.room := by
  rw [Machine.listStates]
  by_cases hlong : longestList < n
  · rw [if_pos hlong]
    exact iff_of_false (fun ⟨_, h⟩ => nomatch h)
      (Nat.not_le.mpr (Nat.lt_of_le_of_lt m.room_le hlong))
  · rw [if_neg hlong]
    by_cases hlt : m.room < n
    · rw [if_pos hlt]
      exact iff_of_false (fun ⟨_, h⟩ => nomatch h) (Nat.not_le.mpr hlt)
    · rw [if_neg hlt]
      exact iff_of_true ⟨_, rfl⟩ (Nat.not_lt.mp hlt)

namespace Amended

variable {M : Amended}

theorem nodup_columns (M : Amended) : M.columns.Nodup := by
  rw [columns]
  split
  · refine List.nodup_append'.mpr ⟨M.base.alphabet.nodup, List.nodup_singleton _, ?_⟩
    exact List.disjoint_singleton.mpr M.base.alphabet.epsilon_notMem
  · rw [List.append_nil]
    exact M.base.alphabet.nodup

/-- The column for empty moves never clashes with another. -/
theorem nodup_stateHeadings_iff : M.stateHeadings.Nodup ↔ ("STATE" : Symbol) ∉ M.base.alphabet := by
  have hsign : ("STATE" : Symbol) ∉
      if M.transitions.any (·.isEpsilon) then [epsilonSign] else [] := by
    split <;> decide
  rw [stateHeadings, List.nodup_cons, and_iff_left M.nodup_columns, columns, List.mem_append,
    or_iff_left hsign]
  exact Iff.rfl

theorem exists_describe_iff : (∃ s, M.describe m = .ok s) ↔
    ("STATE" : Symbol) ∉ M.base.alphabet ∧ M.base.stateCount ≤ m.room := by
  rw [← nodup_stateHeadings_iff, ← exists_listStates_iff, describe, obstacles]
  by_cases hheadings : M.stateHeadings.Nodup
  · rw [if_pos hheadings, and_iff_right hheadings]
    obtain ⟨s, hs⟩ := Option.isSome_iff_exists.mp (M.table.isSome_render?.mpr hheadings)
    rw [hs]
    exact exists_bind_ok_iff.trans exists_bind_ok_iff
  · rw [if_neg hheadings]
    exact iff_of_false (fun ⟨_, h⟩ => nomatch h) fun h => hheadings h.1

theorem exists_draw_iff : (∃ s, M.draw m = .ok s) ↔
    ("STATE" : Symbol) ∉ M.base.alphabet ∧ M.base.stateCount ≤ m.room := by
  rw [← exists_describe_iff, draw, ofWritten]
  cases M.describe m with
  | error reason => exact iff_of_false (fun ⟨_, h⟩ => nomatch h) fun ⟨_, h⟩ => nomatch h
  | ok s => exact iff_of_true ⟨s, rfl⟩ ⟨s, rfl⟩

end Amended

/-! ## Sets of states -/

/-- Of integers, the first that is too long keeps their list from being written. -/
theorem overcome_obstaclesOfAll_int (m : Machine) (l : List Int) :
    m.overcome (Value.obstaclesOfAll (l.map .int)) =
      match l.findSome? unwritableInteger? with
      | some r => .error r
      | none => .ok () := by
  induction l with
  | nil => rfl
  | cons x l ih =>
    rw [List.map_cons, Value.obstaclesOfAll, Value.obstacles, List.findSome?_cons]
    cases unwritableInteger? x with
    | some r => rfl
    | none => exact ih

/-- **Sets of states are written without a list of all states.** -/
theorem StateSet.identityDescribe_eq (m : Machine) (S : StateSet) :
    Identity.describe m S = S.describe := by
  change Value.describeSet m (S.elems.map .int) = _
  have hnames : (S.elems.map Value.int).map Value.plain = S.names := List.map_map ..
  rw [Value.describeSet, Machine.write, overcome_obstaclesOfAll_int, hnames, describe]
  cases S.elems.findSome? unwritableInteger? <;> rfl

/-! ## Tables of moves -/

/-- A table with titles before the symbols is drawn if none of these is a symbol and its rows can be
worked out. -/
theorem exists_drawTitled_iff {titles : List Text} (h : titles.Nodup) {A : Alphabet}
    {rightFirst : Bool} {rows : Except Error (List (List Text))} :
    (∃ s, drawTable (titles ++ A.symbols) rightFirst rows = .ok s) ↔
      (∀ t ∈ titles, t ∉ A) ∧ ∃ r, rows = .ok r := by
  rw [Dfa.exists_drawTable_iff, A.nodup_titles_iff h]

/-- A listing of moves is drawn if the moves and the accepting states can be told. -/
theorem exists_drawMoves_iff {A : Alphabet} {rows : Except Error (List (List Text))}
    {accepting : Except Error (List Text)} : (∃ s, drawMoves A rows accepting = .ok s) ↔
      ("Sigma" : Symbol) ∉ A ∧ (∃ r, rows = .ok r) ∧ ∃ names, accepting = .ok names := by
  have htable : (∃ s, drawTable ("Sigma" :: A.symbols) true (do
      return (← rows).zipIdx.map fun p => (.spell p.2 ++ ":") :: p.1) = .ok s) ↔
        ("Sigma" : Symbol) ∉ A ∧ ∃ r, rows = .ok r := by
    refine (exists_drawTitled_iff (List.nodup_singleton ("Sigma" : Symbol))).trans ?_
    exact and_congr List.forall_mem_singleton exists_bind_ok_iff
  rw [← and_assoc, ← htable]
  constructor
  · rintro ⟨s, h⟩
    obtain ⟨table, htable, h⟩ := bind_eq_ok.mp h
    obtain ⟨names, hnames, -⟩ := bind_eq_ok.mp h
    exact ⟨⟨table, htable⟩, names, hnames⟩
  · rintro ⟨⟨table, htable⟩, names, hnames⟩
    exact ⟨_, bind_eq_ok.mpr ⟨table, htable, bind_eq_ok.mpr ⟨names, hnames, rfl⟩⟩⟩

namespace Dfa

variable {σ : Type} [Identity σ] {D : Dfa σ}

theorem exists_draw_iff : (∃ s, D.draw = .ok s) ↔ ("STATE" : Symbol) ∉ D.alphabet := by
  refine (exists_drawTitled_iff (List.nodup_singleton ("STATE" : Symbol))).trans ?_
  rw [List.forall_mem_singleton, and_iff_left ⟨_, rfl⟩]

theorem exists_drawListing_iff :
    (∃ s, D.drawListing = .ok s) ↔ ("Sigma" : Symbol) ∉ D.alphabet := by
  rw [drawListing, exists_drawMoves_iff, and_iff_left ⟨⟨_, rfl⟩, _, rfl⟩]

/-- **The sets that the states stand for are listed if the numbers in them can be written.** -/
theorem exists_drawIdentities_iff {D : Dfa StateSet} : (∃ s, D.drawIdentities m = .ok s) ↔
    ∀ S ∈ D.identities, ∀ x ∈ S, isLongInteger x = false := by
  have hids : (D.states.zipIdx.map fun p => p.1.identity) = D.identities := by
    refine List.ext_getElem (by simp [identities]) fun i _ _ => by simp [identities]
  have hrows := StateSet.exists_mapM_describe_iff (l := D.states.zipIdx) (fun p => p.1.identity)
    fun p s => [.spell p.2, s]
  rw [hids] at hrows
  simp only [drawIdentities, exists_drawTable_iff, StateSet.identityDescribe_eq]
  rw [and_iff_right (by decide)]
  exact hrows

end Dfa

namespace Minimized

variable {M : Minimized Nat}

/-- **Where each class has a row, the targets of all classes can be told.** -/
theorem WellFormed.exists_targetTexts (h : M.WellFormed) : ∃ r, M.targetTexts = .ok r := by
  refine exists_bind_ok_iff.mpr ?_
  choose! t _ hquery _ using fun (c : Nat) (hc : c < M.classCount) => h.exists_targets hc
  exact ⟨_, allRows_eq_map hquery⟩

theorem WellFormed.exists_draw_iff (h : M.WellFormed) : (∃ s, M.draw = .ok s) ↔
    ("CLASS" : Symbol) ∉ M.alphabet ∧ ("DFA STATES" : Symbol) ∉ M.alphabet := by
  have htitles : (["CLASS", "DFA STATES"] : List Symbol).Nodup := by decide
  refine (exists_drawTitled_iff htitles).trans ?_
  refine (and_iff_left (exists_bind_ok_iff.mpr h.exists_targetTexts)).trans ?_
  simp

/-- **The table of the classes of states never keeps a listing from being drawn.** -/
theorem WellFormed.exists_drawListing_iff (h : M.WellFormed) (mapping : Bool) :
    (∃ s, M.drawListing mapping = .ok s) ↔ ("Sigma" : Symbol) ∉ M.alphabet := by
  have haccepting : ∃ names, (do return (← M.acceptStates).map Value.plain) = .ok names :=
    exists_bind_ok_iff.mpr ⟨_, h.acceptStates_eq⟩
  have hmoves : (∃ s, drawMoves M.alphabet M.targetTexts (do
      return (← M.acceptStates).map Value.plain) = .ok s) ↔ ("Sigma" : Symbol) ∉ M.alphabet :=
    exists_drawMoves_iff.trans (and_iff_left ⟨h.exists_targetTexts, haccepting⟩)
  rw [← hmoves, drawListing]
  cases mapping with
  | false => exact exists_bind_ok_iff
  | true =>
    obtain ⟨classes, hclasses⟩ : ∃ classes, drawTable ["DFA STATE", "MINIMIZED STATE"] false
        (.ok <| M.classAssignment.zipIdx.map fun p =>
          [.spell p.2, (ClassName.toValue p.1).plain]) = .ok classes :=
      Dfa.exists_drawTable_iff.mpr ⟨by decide, _, rfl⟩
    constructor
    · rintro ⟨_, hs⟩
      exact (bind_eq_ok.mp hs).imp fun _ h => h.1
    · rintro ⟨listing, hlisting⟩
      exact ⟨_, bind_eq_ok.mpr ⟨listing, hlisting, bind_eq_ok.mpr ⟨classes, hclasses, rfl⟩⟩⟩

end Minimized

namespace Nfa

/-- **Which tables of an automaton and its conversion can be drawn on a machine.** The automaton's
own table is drawn unless its title is a symbol or there is no room to list its states; those of the
deterministic and of the minimized automaton are drawn unless one of their titles is a symbol,
whether or not the classes of states are listed below; the table of the sets of states is drawn
unless a number in a set is too long to be written. -/
theorem convert_drawable (m : Machine) (N : Nfa) :
    ∃ c, (Amended.ofNfa N).convert .null = .ok c ∧
    ((∃ s, (Amended.ofNfa N).draw m = .ok s) ↔
      ("STATE" : Symbol) ∉ N.alphabet ∧ N.stateCount ≤ m.room) ∧
    ((∃ s, c.dfa.draw = .ok s) ↔ ("STATE" : Symbol) ∉ N.alphabet) ∧
    ((∃ s, c.dfa.drawListing = .ok s) ↔ ("Sigma" : Symbol) ∉ N.alphabet) ∧
    ((∃ s, c.dfa.drawIdentities m = .ok s) ↔
      ∀ S ∈ c.dfa.identities, ∀ x ∈ S, isLongInteger x = false) ∧
    ((∃ s, c.minimized.draw = .ok s) ↔
      ("CLASS" : Symbol) ∉ N.alphabet ∧ ("DFA STATES" : Symbol) ∉ N.alphabet) ∧
    ∀ mapping, ((∃ s, c.minimized.drawListing mapping = .ok s) ↔
      ("Sigma" : Symbol) ∉ N.alphabet) := by
  obtain ⟨D, h, hconvert⟩ := N.exists_convert
  have hM := D.wellFormed_minimize
  have halphabet : D.minimize.alphabet = N.alphabet := h.alphabet_eq
  refine ⟨⟨D, D.minimize⟩, hconvert, Amended.exists_draw_iff, ?_, ?_, Dfa.exists_drawIdentities_iff,
    ?_, fun mapping => ?_⟩
  · rw [Dfa.exists_draw_iff, h.alphabet_eq]
  · rw [Dfa.exists_drawListing_iff, h.alphabet_eq]
  · rw [hM.exists_draw_iff, halphabet]
  · rw [hM.exists_drawListing_iff, halphabet]

/-- One state, without moves, over an alphabet whose one symbol is the title of its column. -/
def titled : Nfa := .still 0 ⟨["STATE"], by decide, by decide, by decide⟩

/-- **A symbol that is spelled like the title of the column of states** keeps the table from being
drawn, on any machine. -/
theorem draw_titled : ("STATE" : Symbol) ∈ titled.alphabet ∧
    ∀ m, (Amended.ofNfa titled).draw m = .error (.unwritable .repeatedHeading) := by
  refine ⟨by decide, fun m => ?_⟩
  rw [Amended.draw, Amended.describe, Amended.obstacles, if_neg (by decide)]
  rfl

end Nfa

end FiniteAutomata
