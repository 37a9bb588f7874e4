import FiniteAutomata.Proofs.Layout.Reading

/-!
# Proofs/Layout/Whole — a layout is read exactly from the texts that spell it

The lines and the table of a description are read one after the other, each up to where the next
begins, which is told by its first character. So a layout is read from a text exactly if the text
spells what it says (`readAll_yields_iff`), and what a text spells is said by one description alone
(`description_unique`).
-/

namespace FiniteAutomata.Layout

open Text (StopsAt)

variable {s rest : Text} {p : CodePoint → Bool}

/-! ## Lines -/

theorem nextIs_of_begins_tokens {t : Text} {ts : List Text} {c : CodePoint} {w : Text}
    (ht : t = c :: w) (hc : isGap c = false)
    (h : Begins (Grammar.tokens (t :: ts)) s rest) : nextIs p s = p c := by
  obtain ⟨mid, h, _⟩ := begins_mul.mp h
  change Begins (Grammar.token t) s mid at h
  exact nextIs_of_begins_token hc (ht ▸ h)

theorem nextIs_of_begins_line {t : Text} {ts : List Text} {L : Language CodePoint} {c : CodePoint}
    {w : Text} (ht : t = c :: w) (hc : isGap c = false)
    (h : Begins (Grammar.line (t :: ts) L) s rest) : nextIs p s = p c := by
  rw [Grammar.line, mul_assoc] at h
  obtain ⟨mid, h, _⟩ := begins_mul.mp h
  exact nextIs_of_begins_tokens ht hc h

/-- How a line is read. -/
theorem line_eq_ok {α : Type} {ts : List Text} {part : Reader α} {a : α} :
    line ts part s = .ok (a, rest) ↔ ∃ s₁, words ts s = .ok s₁ ∧
      ∃ s₂, part s₁ = .ok (a, s₂) ∧ breaks s₂ = .ok rest := by
  simp [line, bind_eq_ok, pure, Except.pure]

theorem line_yields_iff_exists {α β : Type} {ts : List Text} {part : Reader α} {f : α → β}
    {b : β} : (line ts part).Yields f s b rest ↔ ∃ s₁, words ts s = .ok s₁ ∧
      ∃ s₂, part.Yields f s₁ b s₂ ∧ breaks s₂ = .ok rest := by
  simp only [Reader.Yields, line_eq_ok]
  constructor
  · rintro ⟨a, ⟨s₁, hwords, s₂, ha, hbreaks⟩, hb⟩
    exact ⟨s₁, hwords, s₂, ⟨a, ha, hb⟩, hbreaks⟩
  · rintro ⟨s₁, hwords, s₂, ⟨a, ha, hb⟩, hbreaks⟩
    exact ⟨a, ⟨s₁, hwords, s₂, ha, hbreaks⟩, hb⟩

/-- **A line is read exactly where it stands**, if what it says ends where the line does. -/
theorem line_yields_iff {α β : Type} {ts : List Text} {part : Reader α} {f : α → β} {b : β}
    {L : Language CodePoint} {stop : Text → Prop} (hts : ∀ t ∈ ts, IsToken t)
    (hpart : ∀ s rest, part.Yields f s b rest ↔ Begins L s rest ∧ stop rest)
    (hstop : ∀ s rest, Begins Grammar.lineEnds s rest → stop s) :
    (line ts part).Yields f s b rest ↔
      Begins (Grammar.line ts L) s rest ∧ dropBreaks rest = rest := by
  rw [line_yields_iff_exists]
  simp only [Grammar.line, mul_assoc, begins_mul, ← exists_and_right, and_assoc]
  exact exists_congr fun s₁ => and_congr (words_eq_ok hts) <| exists_congr fun s₂ =>
    read_and_iff (hpart s₁ s₂) (fun _ => breaks_eq_ok) fun h => hstop s₂ rest h.1

theorem line_numeral_eq_ok {ts : List Text} {ds : Digits} (hts : ∀ t ∈ ts, IsToken t) :
    line ts numeral s = .ok (ds, rest) ↔
      Begins (Grammar.line ts (Grammar.numeral ds)) s rest ∧ dropBreaks rest = rest := by
  have hpart : ∀ s rest, numeral.Yields id s ds rest ↔
      Begins (Grammar.numeral ds) s rest ∧ StopsAt CodePoint.isDigit rest := by
    simp [Reader.Yields, numeral_eq_ok]
  rw [← line_yields_iff hts hpart fun s rest h =>
    stopsAt_of_nextIs isDigit_of_isGap (nextIs_of_begins_lineEnds rfl rfl h)]
  simp [Reader.Yields]

/-! ## The table -/

/-- How the rows are read. -/
theorem table_eq_ok {rows : List Row} : table s = .ok (rows, rest) ↔ ∃ s₁, dashes s = .ok s₁ ∧
    ∃ first s₂, row s₁ = .ok (first, s₂) ∧ ∃ more s₃,
      many CodePoint.isDigit row s₂ = .ok (more, s₃) ∧ dashes s₃ = .ok rest ∧
        first :: more = rows := by
  simp [table, bind_eq_ok, pure, Except.pure]

theorem table_yields_iff_exists {r : Digits × List (List Digits)}
    {rs : List (Digits × List (List Digits))} :
    table.Yields (·.map Row.description) s (r :: rs) rest ↔
      ∃ s₁, dashes s = .ok s₁ ∧ ∃ s₂, row.Yields Row.description s₁ r s₂ ∧
        ∃ s₃, (many CodePoint.isDigit row).Yields (·.map Row.description) s₂ rs s₃ ∧
          dashes s₃ = .ok rest := by
  simp only [Reader.Yields, table_eq_ok]
  constructor
  · rintro ⟨_, ⟨s₁, htop, first, s₂, hfirst, more, s₃, hmore, hbottom, rfl⟩, h⟩
    obtain ⟨rfl, rfl⟩ := List.cons.inj h
    exact ⟨s₁, htop, s₂, ⟨first, hfirst, rfl⟩, s₃, ⟨more, hmore, rfl⟩, hbottom⟩
  · rintro ⟨s₁, htop, s₂, ⟨first, hfirst, rfl⟩, s₃, ⟨more, hmore, rfl⟩, hbottom⟩
    exact ⟨_, ⟨s₁, htop, first, s₂, hfirst, more, s₃, hmore, hbottom, rfl⟩, rfl⟩

/-- **The rows are read exactly where they stand**, with the lines of dashes around them. -/
theorem table_yields_iff {rs : List (Digits × List (List Digits))} :
    table.Yields (·.map Row.description) s rs rest ↔
      Begins (Grammar.table rs) s rest ∧ dropBreaks rest = rest := by
  cases rs with
  | nil =>
    simp [Reader.Yields, Grammar.table, Grammar.rows, not_begins_zero, table, bind_eq_ok, pure,
      Except.pure]
  | cons r rs =>
    rw [table_yields_iff_exists]
    simp only [Grammar.table, Grammar.rows, mul_assoc, begins_mul, ← exists_and_right, and_assoc]
    refine exists_congr fun s₁ => read_and_iff dashes_eq_ok (fun _ => exists_congr fun s₂ =>
      read_and_iff row_yields_iff (fun hs₂ => exists_congr fun s₃ =>
        read_and_iff (moreRows_yields_iff hs₂) (fun _ => dashes_eq_ok) fun h => ?_) ?_) ?_
    · exact ⟨dropBreaks_eq_self (nextIs_of_begins_rule h.1), nextIs_of_begins_rule h.1⟩
    · rintro ⟨s₃, hrs, hrule, _⟩
      have hs₃ : dropBreaks s₃ = s₃ := dropBreaks_eq_self (nextIs_of_begins_rule hrule)
      exact stop_of_begins_prod (fun t => dropBreaks t = t) (fun _ _ _ h => (begins_row h).2.1)
        hs₃ hrs
    · rintro ⟨s₂, hrow, _⟩
      exact (begins_row hrow).2.1

/-! ## The description -/

/-- How a whole description is read. -/
theorem readAll_eq_ok {l : Layout} : readAll s = .ok (l, rest) ↔ ∃ s₁, optionalBreaks s = s₁ ∧
    ∃ declared s₂, line ["|Q|", ":"] numeral s₁ = .ok (declared, s₂) ∧
    ∃ symbols s₃, line ["Sigma", ":"] (many isSymbolChar symbol) s₂ = .ok (symbols, s₃) ∧
    ∃ rows s₄, table s₃ = .ok (rows, s₄) ∧
    ∃ initial s₅, line ["Initial", "State", ":"] numeral s₄ = .ok (initial, s₅) ∧
    ∃ s₆, words ["Accepting", "State(s)", ":"] s₅ = .ok s₆ ∧
    ∃ accepting s₇, numerals s₆ = .ok (accepting, s₇) ∧
      (⟨declared, symbols, rows, initial, accepting⟩ : Layout) = l ∧
        skipGaps (optionalBreaks s₇) = rest := by
  simp [readAll, bind_eq_ok, pure, Except.pure]

theorem readAll_yields_iff_exists {d : Description} :
    readAll.Yields description s d rest ↔ ∃ s₁, optionalBreaks s = s₁ ∧
      ∃ s₂, line ["|Q|", ":"] numeral s₁ = .ok (d.declared, s₂) ∧
      ∃ s₃, (line ["Sigma", ":"] (many isSymbolChar symbol)).Yields (·.map (·.1)) s₂ d.symbols s₃ ∧
      ∃ s₄, table.Yields (·.map Row.description) s₃ d.rows s₄ ∧
      ∃ s₅, line ["Initial", "State", ":"] numeral s₄ = .ok (d.initial, s₅) ∧
      ∃ s₆, words ["Accepting", "State(s)", ":"] s₅ = .ok s₆ ∧
      ∃ s₇, numerals s₆ = .ok (d.accepting, s₇) ∧ skipGaps (optionalBreaks s₇) = rest := by
  simp only [Reader.Yields, readAll_eq_ok]
  constructor
  · rintro ⟨_, ⟨s₁, h₁, _, s₂, h₂, symbols, s₃, h₃, rows, s₄, h₄, _, s₅, h₅, s₆, h₆, _, s₇, h₇,
      rfl, h₈⟩, rfl⟩
    exact ⟨s₁, h₁, s₂, h₂, s₃, ⟨symbols, h₃, rfl⟩, s₄, ⟨rows, h₄, rfl⟩, s₅, h₅, s₆, h₆, s₇, h₇, h₈⟩
  · obtain ⟨declared, _, _, initial, accepting⟩ := d
    rintro ⟨s₁, h₁, s₂, h₂, s₃, ⟨symbols, h₃, rfl⟩, s₄, ⟨rows, h₄, rfl⟩, s₅, h₅, s₆, h₆, s₇, h₇,
      h₈⟩
    exact ⟨_, ⟨s₁, h₁, declared, s₂, h₂, symbols, s₃, h₃, rows, s₄, h₄, initial, s₅, h₅, s₆, h₆,
      accepting, s₇, h₇, rfl, h₈⟩, rfl⟩

/-- The accepting states are read exactly where they stand at the end of a text. -/
theorem numerals_and_end_iff {ns : List Digits} :
    numerals s = .ok (ns, rest) ∧ skipGaps (optionalBreaks rest) = [] ↔
      Begins (Grammar.numerals ns) s rest ∧
        ∃ mid, Begins (1 + Grammar.lineEnds) rest mid ∧ Begins Grammar.gaps mid [] := by
  rw [← begins_mul, skipGaps_optionalBreaks_eq_nil]
  exact and_congr_left fun h =>
    numerals_eq_ok (nextIs_of_begins_end rfl rfl h) (nextIs_of_begins_end rfl rfl h)

/-- **A layout is read exactly from the texts that spell what it says.** -/
theorem readAll_yields_iff {d : Description} :
    readAll.Yields description s d [] ↔ s ∈ Grammar.texts d := by
  rw [readAll_yields_iff_exists, mem_iff_begins]
  simp only [Grammar.texts, mul_assoc, begins_mul]
  -- each part ends where the next begins, which has a first character of its own
  refine exists_congr fun s₁ => (and_congr_right' (exists_congr fun s₂ =>
    read_and_iff (line_numeral_eq_ok (by decide)) (fun _ => exists_congr fun s₃ =>
    read_and_iff (line_yields_iff (by decide) (fun _ _ => symbols_yields_iff) ?_)
      (fun _ => exists_congr fun s₄ =>
    read_and_iff table_yields_iff (fun _ => exists_congr fun s₅ =>
    read_and_iff (line_numeral_eq_ok (by decide)) (fun _ => exists_congr fun s₆ =>
    and_congr (words_eq_ok (by decide)) (exists_congr fun s₇ => numerals_and_end_iff))
      ?_) ?_) ?_) ?_)).trans (and_congr_left ?_)
  · exact fun s rest h => nextIs_of_begins_lineEnds rfl rfl h
  · rintro ⟨s₆, h, _⟩
    exact dropBreaks_eq_self (nextIs_of_begins_tokens rfl rfl h)
  · rintro ⟨s₅, h, _⟩
    exact dropBreaks_eq_self (nextIs_of_begins_line rfl rfl h)
  · rintro ⟨s₄, h, _⟩
    rw [Grammar.table, mul_assoc] at h
    obtain ⟨mid, h, _⟩ := begins_mul.mp h
    exact dropBreaks_eq_self (nextIs_of_begins_rule h)
  · rintro ⟨s₃, h, _⟩
    exact dropBreaks_eq_self (nextIs_of_begins_line rfl rfl h)
  · rintro ⟨s₂, h, _⟩
    exact optionalBreaks_eq_iff (nextIs_of_begins_line rfl rfl h)

theorem read_eq_ok {text : Text} {l : Layout} :
    read text = .ok l ↔ readAll text = .ok (l, []) := by
  unfold read
  dsimp only
  split <;> simp_all

/-- **The description that a text spells is read from it.** -/
theorem exists_read_eq_ok_iff {text : Text} {d : Description} :
    (∃ l, read text = .ok l ∧ l.description = d) ↔ text ∈ Grammar.texts d := by
  simp only [read_eq_ok, ← readAll_yields_iff, Reader.Yields]

/-- **A text spells one description at most.** -/
theorem description_unique {text : Text} {d d' : Description} (h : text ∈ Grammar.texts d)
    (h' : text ∈ Grammar.texts d') : d = d' := by
  obtain ⟨l, hl, rfl⟩ := exists_read_eq_ok_iff.mpr h
  obtain ⟨l', hl', rfl⟩ := exists_read_eq_ok_iff.mpr h'
  rw [Except.ok.inj (hl.symm.trans hl')]

end FiniteAutomata.Layout
