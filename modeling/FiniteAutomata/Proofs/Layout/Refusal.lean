import FiniteAutomata.Proofs.Layout.Meaning
import FiniteAutomata.Proofs.Nfa.Refusal

/-!
# Proofs/Layout/Refusal — why a text in lines describes no automaton

A text that spells no description is refused at a place in it. A description is refused in words
that say what is wrong with it, unless one of its numerals has more digits than can be read: that
error is no complaint about a description (`toNfa_eq_error`, `Nfa.ofLayout_eq_error`). What has been
read as a number is short enough to be written again (`not_isLongInteger_value`), so no complaint
about the automaton itself lacks its words.
-/

namespace FiniteAutomata

/-- **The error says what is wrong with a configuration or with a description of one.** -/
def Error.IsRefusal (e : Error) : Prop := e.category = .configuration ∨ e.category = .description

namespace Layout

variable {text : Text} {e : Error} {ds : Digits}

/-! ## Numbers -/

/-- **A number that can be read can be written.** -/
theorem not_isLongInteger_value (hds : IsNumeral ds) (h : ds.length ≤ Text.numeralLimit) :
    ¬ isLongInteger (value ds) := by
  rw [isLongInteger, Int.natAbs_natCast, decide_eq_true_eq, Nat.not_le]
  generalize Text.numeralLimit = k at h
  calc value ds < Nat.pow 10 ds.length := ofDigits_eq_value hds ▸ Text.ofDigits_lt hds.2
    _ ≤ Nat.pow 10 k := Nat.pow_le_pow_right (by decide) h

/-- All numbers of a short description can be written. -/
theorem Description.Short.writable {d : Description} (h : d.Short)
    (hds : ∀ ds ∈ d.numerals, IsNumeral ds) : ∀ ds ∈ d.numerals, ¬ isLongInteger (value ds) :=
  fun ds hmem => not_isLongInteger_value (hds ds hmem) (h ds hmem)

theorem not_isLongInteger_of_lt {m n : Nat} (hn : ¬ isLongInteger n) (h : m < n) :
    ¬ isLongInteger m := by
  rw [isLongInteger, Int.natAbs_natCast, Nat.pow_eq, decide_eq_true_eq] at hn ⊢
  exact fun hm => hn (Nat.le_trans hm (Nat.le_of_lt h))

/-- The error is that a part of the layout has a numeral that is too long, one of these. -/
def IsLongNumeral (nss : List Digits) (e : Error) : Prop :=
  ∃ part, ∃ ds ∈ nss, Text.numeralLimit < ds.length ∧ e = .layoutNumeral part ⟨ds.length⟩

theorem number_eq_error {part : Text} (h : number part ds = .error e) {nss : List Digits}
    (hds : ds ∈ nss) : IsLongNumeral nss e := by
  unfold number at h
  split at h
  · rename_i hlong
    exact ⟨part, ds, hds, hlong, (Except.error.inj h).symm⟩
  · exact nomatch h

theorem mapM_number_eq_error {part : Text} {ns : List Digits}
    (h : ns.mapM (number part) = .error e) {nss : List Digits} (hns : ∀ ds ∈ ns, ds ∈ nss) :
    IsLongNumeral nss e := by
  obtain ⟨ds, hds, h⟩ := exists_of_mapM_eq_error h
  exact number_eq_error h (hns ds hds)

/-! ## Checks -/

/-- A text that is no description is refused at a place, or at its end. -/
theorem read_eq_error (h : read text = .error e) : e.category = .description := by
  have hfailure : ∀ rest : Text, (if rest = [] then Error.layout true .unknown
      else .layout false (positionOf text rest.length)).category = .description := by
    intro rest
    split <;> rfl
  unfold read at h
  dsimp only at h
  split at h
  · exact nomatch h
  · exact Except.error.inj h ▸ hfailure _
  · exact Except.error.inj h ▸ hfailure _

theorem checkSymbols_eq_error {ps : List (Symbol × Nat)} (h : checkSymbols text ps = .error e) :
    e.category = .description := by
  unfold checkSymbols at h
  split at h
  · exact Except.error.inj h ▸ rfl
  · exact nomatch h

theorem checkRow_eq_error {columns : List Symbol} {i : Nat} {r : Row} {sets : List (List Nat)}
    (h : checkRow text columns i r sets = .error e) {nss : List Digits} (hr : r.label ∈ nss) :
    e.category = .description ∨ IsLongNumeral nss e := by
  obtain h | ⟨n, _, h⟩ := bind_eq_error.mp h
  · exact .inr (number_eq_error h hr)
  · dsimp only at h
    split at h
    · exact .inl (Except.error.inj h ▸ rfl)
    · split at h
      · exact .inl (Except.error.inj h ▸ rfl)
      · exact nomatch h

/-! ## The automaton -/

variable {d : Description}

theorem mem_rowMoves {i : Nat} {columns : List Symbol} {sets : List (List Nat)}
    {m : MoveTable.Listed} (h : m ∈ rowMoves i columns sets) :
    m.1.1 = i ∧ ∃ ns ∈ sets, m.2 = ns.map fun (n : Nat) => (n : State) := by
  obtain ⟨p, hp, h⟩ := List.mem_filterMap.mp h
  split at h
  · exact nomatch h
  · obtain rfl := Option.some.inj h
    exact ⟨rfl, p.2, (List.of_mem_zip hp).2, rfl⟩

/-- The states of the moves that a short description lists can all be written. -/
theorem writable_moves (hds : ∀ ds ∈ d.numerals, IsNumeral ds) (hshort : d.Short)
    (hcount : d.rows.length = value d.declared) : ∀ m ∈ d.moves,
      ¬ isLongInteger m.1.1 ∧ ∀ y ∈ m.2, ¬ isLongInteger y := by
  obtain ⟨hdeclared, -, -, hrows⟩ := Description.forall_mem_numerals.mp (hshort.writable hds)
  intro m hm
  obtain ⟨⟨r, i⟩, hr, hm⟩ := List.mem_flatMap.mp hm
  obtain ⟨hsource, ns, hns, htargets⟩ := mem_rowMoves hm
  have hi := List.mem_zipIdx_iff_getElem?.mp hr
  refine ⟨?_, fun y hy => ?_⟩
  · have hlt : i < value d.declared := hcount ▸ (List.getElem?_eq_some_iff.mp hi).1
    rw [hsource]
    exact not_isLongInteger_of_lt hdeclared hlt
  · obtain ⟨ks, hks, rfl⟩ := List.mem_map.mp hns
    rw [htargets, List.map_map] at hy
    obtain ⟨ds, hds, rfl⟩ := List.mem_map.mp hy
    exact (hrows r (List.mem_of_getElem? hi)).2 ds (List.mem_flatten.mpr ⟨ks, hks, hds⟩)

/-- **The automaton of a short description is refused in words.** -/
theorem category_of_ofTable_eq_error (hds : ∀ ds ∈ d.numerals, IsNumeral ds) (hshort : d.Short)
    (hcount : d.rows.length = value d.declared)
    (h : (MoveTable.ofEntries (d.moves.map MoveTable.entry) >>= fun table =>
      Nfa.ofTable (.int (value d.declared)) (.list (d.symbols.map .text)) table
        (.int (value d.initial)) (.list (d.accepting.map fun ds => .int (value ds)))) =
      .error e) : e.category = .configuration := by
  obtain ⟨hdeclared, hinitial, haccepting, -⟩ :=
    Description.forall_mem_numerals.mp (hshort.writable hds)
  obtain ⟨ms, htable, hms⟩ := MoveTable.exists_ofEntries_eq_ok
    (P := fun κ => ¬ isLongInteger κ.1) (Q := fun ys => ∀ y ∈ ys, ¬ isLongInteger y)
    (writable_moves hds hshort hcount)
  obtain ⟨ts, hts, hleads⟩ := Nfa.exists_ofTable_map_entry ms
  rw [htable] at h
  replace h := (hts _ _ _ _).symm.trans h
  have hints : ((d.accepting.map fun ds => (value ds : Int)).map Value.int) =
      d.accepting.map fun ds => .int (value ds) := List.map_map
  rw [← hints] at h
  refine (Nfa.isComplaint_of_ofValues_eq_error h).category_eq ?_
  rintro (h | h | ⟨_, hs, h⟩ | ⟨t, ht, h⟩)
  · exact hdeclared h
  · exact hinitial h
  · obtain ⟨ds, hds, rfl⟩ := List.mem_map.mp hs
    exact haccepting ds hds h
  · obtain ⟨b, hb⟩ := MoveTable.exists_reads_ofText t
    obtain ⟨ys, hmem, hy⟩ := (hleads _ _ _).mp ⟨t, ht, hb, rfl, rfl⟩
    obtain ⟨hsource, htargets⟩ := hms _ hmem
    exact h.elim hsource (htargets _ hy)

/-- The same of the entries that its rows make. -/
theorem category_of_ofTable_rows_eq_error {l : Layout}
    (hds : ∀ ds ∈ l.description.numerals, IsNumeral ds) (hshort : l.description.Short)
    (hcount : l.description.rows.length = value l.declared)
    (h : (MoveTable.ofEntries (l.rows.zipIdx.map fun p =>
        (rowMoves p.2 (l.description.symbols ++ [epsilonSign])
          (p.1.sets.map (·.map value))).map MoveTable.entry).flatten >>= fun table =>
      Nfa.ofTable (.int (value l.declared)) (.list (l.description.symbols.map .text)) table
        (.int (value l.initial))
        (.list ((l.accepting.map value).map fun (n : Nat) => .int n))) = .error e) :
    e.category = .configuration := by
  have hints : ((l.accepting.map value).map fun (n : Nat) => Value.int n) =
      l.description.accepting.map fun ds => .int (value ds) := List.map_map
  refine category_of_ofTable_eq_error hds hshort hcount ?_
  rw [← flatten_rowMoves, ← hints]
  exact h

/-- **A description is refused in words**, unless one of its numerals is too long. -/
theorem toNfa_eq_error {l : Layout} (hds : ∀ ds ∈ l.description.numerals, IsNumeral ds)
    (h : l.toNfa text = .error e) :
    e.IsRefusal ∨ IsLongNumeral l.description.numerals e := by
  obtain ⟨hdeclared, hinitial, haccepting, hrows⟩ := Description.forall_mem_numerals.mp hds
  obtain ⟨hdeclared', hinitial', haccepting', hrows'⟩ :=
    (Description.forall_mem_numerals (d := l.description)).mp fun _ h => h
  rw [description, List.forall_mem_map] at hrows hrows'
  obtain h | ⟨n, hn, h⟩ := bind_eq_error.mp h
  · exact .inr (number_eq_error h hdeclared')
  obtain h | ⟨as, has, h⟩ := bind_eq_error.mp h
  · exact .inl (.inr (checkSymbols_eq_error h))
  obtain h | ⟨sets, hsets, h⟩ := bind_eq_error.mp h
  · obtain ⟨r, hr, h⟩ := exists_of_mapM_eq_error h
    obtain ⟨ns, hns, h⟩ := exists_of_mapM_eq_error h
    refine .inr (mapM_number_eq_error h fun ds hds => (hrows' r hr).2 ds ?_)
    exact List.mem_flatten.mpr ⟨ns, hns, hds⟩
  obtain h | ⟨q, hq, h⟩ := bind_eq_error.mp h
  · exact .inr (number_eq_error h hinitial')
  obtain h | ⟨F, hF, h⟩ := bind_eq_error.mp h
  · exact .inr (mapM_number_eq_error h haccepting')
  dsimp only at h
  split at h
  · exact .inl (.inr (Except.error.inj h ▸ rfl))
  rename_i hcount
  obtain h | ⟨es, hes, h⟩ := bind_eq_error.mp h
  · obtain ⟨p, hp, h⟩ := exists_of_mapM_eq_error h
    have hr := (List.of_mem_zip (List.fst_mem_of_mem_zipIdx hp)).1
    exact (checkRow_eq_error h (hrows' _ hr).1).imp_left .inr
  -- All numerals have been read, so the description is short.
  obtain ⟨hshortn, rfl⟩ := (number_eq_ok hdeclared).mp hn
  obtain ⟨hne, rfl⟩ := checkSymbols_eq_ok.mp has
  obtain ⟨hshorts, rfl⟩ := (numberRows_eq_ok fun r hr => (hrows r hr).2).mp hsets
  obtain ⟨hshortq, rfl⟩ := (number_eq_ok hinitial).mp hq
  obtain ⟨hshortF, rfl⟩ := (mapM_number_eq_ok haccepting).mp hF
  obtain ⟨hlines, rfl⟩ := (checkRows_eq_ok fun r hr => (hrows r hr).1).mp hes
  have hshort : l.description.Short :=
    short_of_parts hshortn hshortq hshortF hshorts fun i r hr => (hlines i r hr).1
  have hcount : l.description.rows.length = value l.declared :=
    (List.length_map _).trans (not_not.mp hcount)
  exact .inl (.inl (category_of_ofTable_rows_eq_error hds hshort hcount h))

end Layout

/-- **A number of states that is too long is found first**, before anything else that is wrong with
the description. -/
theorem Nfa.ofLayout_of_long_declared {text : Text} {d : Layout.Description}
    (hd : text ∈ Layout.Grammar.texts d) (h : Text.numeralLimit < d.declared.length) :
    ofLayout text = .error (.layoutNumeral "header" ⟨d.declared.length⟩) := by
  obtain ⟨l, hl, rfl⟩ := Layout.exists_read_eq_ok_iff.mpr hd
  have hnumber : Layout.number "header" l.declared =
      .error (.layoutNumeral "header" ⟨l.declared.length⟩) := if_pos h
  rw [ofLayout, hl]
  change l.toNfa _ = _
  rw [Layout.toNfa, hnumber]
  rfl

/-- **A text that describes no automaton is refused in words**, unless it spells a description with
a numeral that is too long. -/
theorem Nfa.ofLayout_eq_error {text : Text} {e : Error} (h : ofLayout text = .error e) :
    e.IsRefusal ∨ ∃ d, text ∈ Layout.Grammar.texts d ∧
      Layout.IsLongNumeral d.numerals e := by
  obtain h | ⟨l, hl, h⟩ := bind_eq_error.mp h
  · exact .inl (.inr (Layout.read_eq_error h))
  · have hspelled := Layout.exists_read_eq_ok_iff.mp ⟨l, hl, rfl⟩
    have hnumerals := (Layout.Grammar.wellFormed_of_mem_texts hspelled).1
    exact (Layout.toNfa_eq_error hnumerals h).imp_right fun hlong => ⟨_, hspelled, hlong⟩

end FiniteAutomata
