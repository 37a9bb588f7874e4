import FiniteAutomata.Proofs.Conversion.Language
import FiniteAutomata.Proofs.Nfa.Assembly
import FiniteAutomata.Proofs.Outcome

/-!
# Proofs/Conversion/Events — what the level of recording changes of an outcome

Recording an event leaves the outcome as it is (`Traced.outcome_record`), so two levels can differ
only in the one thing that is worked out for the sake of an event: the table of the subset
construction, drawn at the least level. If it cannot be drawn, the construction fails there
(`Nfa.outcome_toDfaTraced`). This is so exactly if one of its own two headings is a symbol, or if a
set holds a state whose number is too long to be written (`Dfa.exists_drawSubsets_iff`). All other
pairs of levels have the same outcome (`Amended.outcome_eq_iff`).
-/

namespace FiniteAutomata

/-! ## Recording -/

theorem Level.shows_debug {l : Level} : l.shows .debug = true ↔ l = .debug := by
  cases l <;> decide

/-- What is the same at all levels but the least is the same at two levels if both or neither is the
least, or if it is that at the least too. -/
theorem Level.apply_eq_iff {α : Type} {f : Level → α} {y : α} (hf : ∀ l, l ≠ .debug → f l = y)
    (l m : Level) : f l = f m ↔ (l = .debug ↔ m = .debug) ∨ f .debug = y := by
  by_cases hl : l = .debug <;> by_cases hm : m = .debug
  · simp [hl, hm]
  · simp [hl, hm, hf m hm]
  · simp [hl, hm, hf l hl, eq_comm]
  · simp [hl, hm, hf l hl, hf m hm]

namespace Traced

variable {α β : Type}

/-- **Recording an event does not change the outcome.** -/
theorem outcome_record (l : Level) (e : Event) (t : Traced α) :
    (t.record l e).outcome = t.outcome := by
  rw [record]
  split <;> rfl

theorem outcome_andThen (t : Traced α) (f : α → Traced β) :
    (t.andThen f).outcome = t.outcome >>= fun a => (f a).outcome := by
  obtain ⟨outcome, _⟩ := t
  cases outcome <;> rfl

end Traced

/-! ## The table of the subset construction -/

/-- **A set of states is written if the numbers of its members are.** -/
theorem StateSet.exists_describe_iff {S : StateSet} :
    (∃ s, S.describe = .ok s) ↔ ∀ x ∈ S, isLongInteger x = false := by
  have hnone : S.elems.findSome? unwritableInteger? = none ↔ ∀ x ∈ S, isLongInteger x = false := by
    rw [List.findSome?_eq_none_iff]
    refine forall₂_congr fun x _ => ?_
    rw [unwritableInteger?]
    cases isLongInteger x <;> simp
  rw [← hnone, StateSet.describe]
  cases S.elems.findSome? unwritableInteger? with
  | none => simp
  | some reason => simp

/-- Cells for the sets of a list can be made if all their members can be written. -/
theorem StateSet.exists_mapM_describe_iff {α : Type} {l : List α} (f : α → StateSet)
    (cells : α → Text → List Text) :
    (∃ r, l.mapM (fun p => (f p).describe >>= fun s => .ok (cells p s)) = .ok r) ↔
      ∀ S ∈ l.map f, ∀ x ∈ S, isLongInteger x = false := by
  simp only [mapM_eq_ok_iff]
  rw [exists_forall₂_iff, List.forall_mem_map]
  refine forall₂_congr fun p _ => ?_
  rw [← exists_describe_iff]
  exact exists_bind_ok_iff

/-! ## Headings -/

/-- The headings are distinct if the titles are, and none of these is a symbol. -/
theorem Alphabet.nodup_titles_iff {titles : List Text} (h : titles.Nodup) (A : Alphabet) :
    (titles ++ A.symbols).Nodup ↔ ∀ t ∈ titles, t ∉ A := by
  rw [List.nodup_append', and_iff_right h, and_iff_right A.nodup]
  exact Iff.rfl

namespace Dfa

/-- **The table of the subset construction can be drawn**: neither of its own headings is a symbol,
and the numbers in all sets can be written. -/
structure HasSubsetTable (D : Dfa StateSet) : Prop where
  notMem_nfa : ("NFA STATE" : Symbol) ∉ D.alphabet
  notMem_dfa : ("DFA STATE" : Symbol) ∉ D.alphabet
  isLongInteger_eq : ∀ S ∈ D.identities, ∀ x ∈ S, isLongInteger x = false

/-- A table is drawn exactly if its headings are distinct and its rows can be worked out. -/
theorem exists_drawTable_iff {columns : List Text} {rightFirst : Bool}
    {rows : Except Error (List (List Text))} :
    (∃ s, drawTable columns rightFirst rows = .ok s) ↔ columns.Nodup ∧ ∃ r, rows = .ok r := by
  rw [drawTable]
  by_cases hcolumns : columns.Nodup
  · rw [if_pos hcolumns, and_iff_right hcolumns]
    constructor
    · rintro ⟨s, h⟩
      obtain ⟨r, hr, -⟩ := bind_eq_ok.mp h
      exact ⟨r, hr⟩
    · rintro ⟨r, rfl⟩
      obtain ⟨s, hs⟩ := Option.isSome_iff_exists.mp
        ((Table.isSome_render? ⟨columns, rightFirst, r⟩).mpr hcolumns)
      exact ⟨s, bind_eq_ok.mpr ⟨r, rfl, by rw [hs]; rfl⟩⟩
  · rw [if_neg hcolumns]
    exact iff_of_false (fun ⟨_, h⟩ => nomatch h) fun h => hcolumns h.1

/-- The headings are distinct if none of those that come first is a symbol. -/
theorem nodup_headings_iff {A : Alphabet} :
    (("NFA STATE" : Symbol) :: "DFA STATE" :: A.symbols).Nodup ↔
      ("NFA STATE" : Symbol) ∉ A ∧ ("DFA STATE" : Symbol) ∉ A := by
  have htitles : (["NFA STATE", "DFA STATE"] : List Symbol).Nodup := by decide
  exact (A.nodup_titles_iff htitles).trans (by simp)

theorem exists_drawSubsets_iff {D : Dfa StateSet} :
    (∃ s, D.drawSubsets = .ok s) ↔ D.HasSubsetTable := by
  have hlen : D.allRows.length = D.states.length := by simp [allRows, size]
  have hfst : ((D.states.zip D.allRows).zipIdx.map fun p => p.1.1.identity) = D.identities := by
    refine List.ext_getElem (by simp [identities, hlen]) fun i _ _ => by simp [identities]
  have hrows := StateSet.exists_mapM_describe_iff (l := (D.states.zip D.allRows).zipIdx)
    (fun p => p.1.1.identity) fun p s => s :: .spell p.2 :: p.1.2.map targetName
  rw [hfst] at hrows
  rw [drawSubsets, exists_drawTable_iff, nodup_headings_iff]
  constructor
  · rintro ⟨⟨hnfa, hdfa⟩, hshort⟩
    exact ⟨hnfa, hdfa, hrows.mp hshort⟩
  · rintro ⟨hnfa, hdfa, hshort⟩
    exact ⟨⟨hnfa, hdfa⟩, hrows.mpr hshort⟩

end Dfa

/-! ## Outcomes -/

namespace Nfa

/-- **The subset construction fails only as it does without events, or at the table that is drawn
for one.** -/
theorem outcome_toDfaTraced (l : Level) (limit : Value) (N : Nfa) :
    (N.toDfaTraced l limit).outcome = do
      let D ← N.toDfa limit
      if l = .debug then
        let _ ← D.drawSubsets
        return D
      else return D := by
  rw [toDfaTraced]
  cases N.toDfa limit with
  | error e => rfl
  | ok D =>
    change Traced.outcome (if l.shows .debug then _ else _) = if l = .debug then _ else _
    by_cases hl : l = .debug
    · rw [if_pos (Level.shows_debug.mpr hl), if_pos hl]
      cases D.drawSubsets <;> simp only [Traced.outcome_record] <;> rfl
    · rw [if_neg (mt Level.shows_debug.mp hl), if_neg hl, Traced.outcome_record]
      rfl

/-- Away from the least level the subset construction is the one without events. -/
theorem outcome_toDfaTraced_of_ne {l : Level} (hl : l ≠ .debug) (limit : Value) (N : Nfa) :
    (N.toDfaTraced l limit).outcome = N.toDfa limit := by
  rw [outcome_toDfaTraced]
  simp only [if_neg hl]
  exact bind_pure _

/-- At the least level it is, too, unless it yields an automaton whose table cannot be drawn. -/
theorem outcome_toDfaTraced_debug_eq_iff {limit : Value} {N : Nfa} :
    (N.toDfaTraced .debug limit).outcome = N.toDfa limit ↔
      ∀ D, N.toDfa limit = .ok D → D.HasSubsetTable := by
  rw [outcome_toDfaTraced]
  cases N.toDfa limit with
  | error e => exact iff_of_true rfl fun _ h => nomatch h
  | ok D =>
    change (D.drawSubsets >>= fun _ => .ok D) = .ok D ↔ _
    simp only [Except.ok.injEq, forall_eq', ← Dfa.exists_drawSubsets_iff, bind_eq_ok, and_true]

/-- **A symbol that is spelled like a heading makes the construction fail** at the least level. -/
theorem outcome_toDfaTraced_of_clash {N : Nfa}
    (h : ¬ (("NFA STATE" : Symbol) :: "DFA STATE" :: N.alphabet.symbols).Nodup) :
    (N.toDfaTraced .debug .null).outcome = .error (.unwritable .repeatedHeading) := by
  obtain ⟨D, hD, hsubset⟩ := N.exists_toDfa
  rw [← hsubset.alphabet_eq] at h
  rw [outcome_toDfaTraced, hD]
  exact congrArg (· >>= fun _ => Except.ok D) (if_neg h)

end Nfa

namespace Amended

variable {M : Amended} {limit : Value} {l m : Level}

/-- **A conversion fails only at its checks or in the subset construction**, and its outcome depends
on the level as that of the latter does. -/
theorem outcome_convertTraced (l : Level) (limit : Value) (M : Amended) :
    (M.convertTraced l limit).outcome = do
      M.validate
      let D ← (M.base.toDfaTraced l limit).outcome
      return ⟨D, D.minimize⟩ := by
  rw [convertTraced]
  cases M.validate with
  | error e => rfl
  | ok u =>
    change Traced.outcome (Traced.record _ _ _) = _
    rw [Traced.outcome_record, Traced.outcome_andThen]
    rfl

theorem outcome_convertTraced_of_ne (hl : l ≠ .debug) (limit : Value) (M : Amended) :
    (M.convertTraced l limit).outcome = M.convert limit := by
  rw [outcome_convertTraced, Nfa.outcome_toDfaTraced_of_ne hl]
  rfl

theorem outcome_convertTraced_debug_eq_iff :
    (M.convertTraced .debug limit).outcome = M.convert limit ↔
      M.validate ≠ .ok () ∨ (M.base.toDfaTraced .debug limit).outcome = M.base.toDfa limit := by
  rw [outcome_convertTraced, convert]
  cases M.validate with
  | error e => exact iff_of_true rfl (.inl (by simp))
  | ok u =>
    have hinj : Function.Injective fun D : Dfa StateSet => Conversion.mk D D.minimize :=
      fun _ _ h => congrArg Conversion.dfa h
    exact (bind_ok_inj hinj).trans (or_iff_right fun h => h rfl).symm

/-- **Two levels have the same outcome exactly if both or neither is the least, or if the table that
is drawn at the least level is no obstacle**: the construction, or the checks before it, fail
anyway, or neither of the headings of the table is a symbol and the numbers of all states that turn
up can be written. -/
theorem outcome_eq_iff (M : Amended) (limit : Value) (l m : Level) :
    ((M.base.toDfaTraced l limit).outcome = (M.base.toDfaTraced m limit).outcome ↔
      (l = .debug ↔ m = .debug) ∨ ∀ D, M.base.toDfa limit = .ok D → D.HasSubsetTable) ∧
    ((M.convertTraced l limit).outcome = (M.convertTraced m limit).outcome ↔
      (l = .debug ↔ m = .debug) ∨ M.validate ≠ .ok () ∨
        ∀ D, M.base.toDfa limit = .ok D → D.HasSubsetTable) := by
  rw [Level.apply_eq_iff (f := fun l => (M.base.toDfaTraced l limit).outcome)
      (fun _ hl => Nfa.outcome_toDfaTraced_of_ne hl limit M.base),
    Level.apply_eq_iff (f := fun l => (M.convertTraced l limit).outcome)
      (fun _ hl => outcome_convertTraced_of_ne hl limit M),
    outcome_convertTraced_debug_eq_iff, Nfa.outcome_toDfaTraced_debug_eq_iff]
  exact ⟨Iff.rfl, Iff.rfl⟩

end Amended

namespace Nfa

/-- One state, without moves, over an alphabet whose one symbol is a heading of the table. -/
def headed : Nfa := .still 0 ⟨["NFA STATE"], by decide, by decide, by decide⟩

/-- **A symbol that is spelled like a heading makes a conversion fail** at the least level, and not
at that of warnings. -/
theorem outcome_headed :
    (headed.toDfaTraced .debug .null).outcome = .error (.unwritable .repeatedHeading) ∧
    ((Amended.ofNfa headed).convertTraced .debug .null).outcome =
      .error (.unwritable .repeatedHeading) ∧
    ∃ c, ((Amended.ofNfa headed).convertTraced .warning .null).outcome = .ok c := by
  have hdebug : (headed.toDfaTraced .debug .null).outcome =
      .error (.unwritable .repeatedHeading) := outcome_toDfaTraced_of_clash (by decide)
  refine ⟨hdebug, ?_, ?_⟩
  · rw [Amended.outcome_convertTraced, Amended.validate_ofNfa]
    exact congrArg (· >>= fun D => Except.ok (Conversion.mk D D.minimize)) hdebug
  · obtain ⟨D, -, hconvert⟩ := headed.exists_convert
    exact ⟨_, (Amended.outcome_convertTraced_of_ne (by decide) .null _).trans hconvert⟩

end Nfa

end FiniteAutomata
