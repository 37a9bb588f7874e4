import FiniteAutomata.Proofs.Layout.Whole

/-!
# Proofs/Layout/Places — where the symbols and the labels of a description stand

A layout keeps for each symbol, and for the label of each row, how much of the text is left there.
The grammar says what stands before them (`Grammar.beforeSymbol`, `Grammar.beforeRow`). A text that
spells a description has one beginning of that sort, and what is kept is the place where it ends
(`exists_symbolAfter_iff`, `exists_labelAfter_iff`).
-/

namespace FiniteAutomata.Layout

open Text (StopsAt)

variable {s m rest text : Text} {p : CodePoint → Bool}

/-! ## Positions -/

/-- **Lines are counted by line feeds, and columns from the last of them.** -/
theorem positionAfter_lineFeed {before line : Text} (h : .char '\n' ∉ line) :
    positionAfter (before ++ .char '\n' :: line) =
      ⟨before.count (.char '\n') + 2, line.length + 1⟩ := by
  have hline : ∀ c ∈ line.reverse, (c != '\n') = true := fun c hc =>
    bne_iff_ne.mpr fun he => h (he ▸ List.mem_reverse.mp hc)
  have hlast : (before ++ .char '\n' :: line).reverse.takeWhile
      (fun (c : CodePoint) => c != '\n') = line.reverse := by
    rw [List.reverse_append, List.reverse_cons, List.append_assoc,
      List.takeWhile_append_of_pos hline]
    exact List.append_nil _
  rw [positionAfter, hlast, List.length_reverse, List.count_append, List.count_cons_self,
    List.count_eq_zero_of_not_mem h]
  rfl

theorem positionOf_append (before after : Text) :
    positionOf (before ++ after) after.length = positionAfter before := by
  rw [positionOf, List.length_append, Nat.add_sub_cancel, List.take_left]

/-- Where all beginnings of one sort leave as much of a text, there is only one of them. -/
theorem exists_eq_iff_of_length {P : Text → Prop} {n : Nat} (hexists : ∃ u, P u)
    (hlength : ∀ u, P u → ∃ v, text = u ++ v ∧ v.length = n) :
    ∃ before, (∀ u, P u ↔ u = before) ∧ positionOf text n = positionAfter before := by
  obtain ⟨before, hbefore⟩ := hexists
  obtain ⟨after, rfl, rfl⟩ := hlength before hbefore
  refine ⟨before, fun u => ⟨fun hu => ?_, fun h => h ▸ hbefore⟩, positionOf_append before after⟩
  obtain ⟨v, huv, hv⟩ := hlength u hu
  exact (List.append_inj_left' huv hv.symm).symm

/-! ## What stands before -/

namespace Grammar

/-- Symbols that another follows: a gap stands after the last of them. -/
def leading : List Symbol → Language CodePoint
  | [] => 1
  | a :: as => symbols (a :: as) * gap

/-- **What stands before a symbol**, if these are the symbols before it. -/
def beforeSymbol (d : Description) (as : List Symbol) : Language CodePoint :=
  (1 + lineEnds) *
  line ["|Q|", ":"] (numeral d.declared) *
  tokens ["Sigma", ":"] * leading as * gaps

/-- **What stands before the label of a row**, if these are the rows before it. -/
def beforeRow (d : Description) (rs : List (Digits × List (List Digits))) : Language CodePoint :=
  (1 + lineEnds) *
  line ["|Q|", ":"] (numeral d.declared) *
  line ["Sigma", ":"] (symbols d.symbols) *
  rule * (rs.map row).prod * gaps

theorem symbols_append (as : List Symbol) (a : Symbol) (bs : List Symbol) :
    symbols (as ++ a :: bs) =
      leading as * symbol a * (bs.map fun b => gap * symbol b).prod := by
  cases as with
  | nil => simp [symbols, leading]
  | cons c cs => simp [symbols, leading, mul_assoc]

theorem rows_append (rs : List (Digits × List (List Digits))) (r : Digits × List (List Digits))
    (rs' : List (Digits × List (List Digits))) :
    rows (rs ++ r :: rs') = (rs.map row).prod * row r * (rs'.map row).prod := by
  cases rs with
  | nil => simp [rows]
  | cons c cs => simp [rows, mul_assoc]

end Grammar

variable {d : Description}

/-- **The symbol stands in the text after this**, and these symbols before it. -/
def Description.SymbolAfter (d : Description) (as : List Symbol) (a : Symbol)
    (text before : Text) : Prop :=
  before ∈ Grammar.beforeSymbol d as ∧ before ++ a <+: text

/-- **The label stands in the text after this**, and these rows before its own. -/
def Description.LabelAfter (d : Description) (rs : List (Digits × List (List Digits)))
    (label : Digits) (text before : Text) : Prop :=
  before ∈ Grammar.beforeRow d rs ∧ before ++ label <+: text

/-- Before a token that stands after gaps there is the end of the gaps. -/
theorem exists_of_begins_token {L : Language CodePoint} {w : Text}
    (h : Begins (L * Grammar.token w) s rest) : ∃ u ∈ L * Grammar.gaps, u ++ w <+: s := by
  rw [Grammar.token, ← mul_assoc, begins_mul] at h
  obtain ⟨_, ⟨u, hu, rfl⟩, w, rfl, rfl⟩ := h
  exact ⟨u, hu, rest, List.append_assoc u w rest⟩

/-- **Each symbol of a description stands somewhere.** -/
theorem exists_symbolAfter (h : text ∈ Grammar.texts d) {as bs : List Symbol} {a : Symbol}
    (hsplit : d.symbols = as ++ a :: bs) : ∃ before, d.SymbolAfter as a text before := by
  rw [mem_iff_begins, Grammar.texts] at h
  simp only [mul_assoc, begins_mul] at h
  obtain ⟨s₁, hbreaks, s₂, hdeclared, s₃, hsymbols, -⟩ := h
  rw [Grammar.line, hsplit, Grammar.symbols_append] at hsymbols
  simp only [mul_assoc, begins_mul] at hsymbols
  obtain ⟨s₄, hsigma, s₅, has, s₆, ha, -⟩ := hsymbols
  refine exists_of_begins_token (show Begins (_ * Grammar.token a) text s₆ from ?_)
  simp only [mul_assoc, begins_mul]
  exact ⟨s₁, hbreaks, s₂, hdeclared, s₄, hsigma, s₅, has, (begins_symbol.mp ha).2⟩

/-- **The label of each row of a description stands somewhere.** -/
theorem exists_labelAfter (h : text ∈ Grammar.texts d)
    {rs rs' : List (Digits × List (List Digits))} {r : Digits × List (List Digits)}
    (hsplit : d.rows = rs ++ r :: rs') : ∃ before, d.LabelAfter rs r.1 text before := by
  rw [mem_iff_begins, Grammar.texts] at h
  simp only [mul_assoc, begins_mul] at h
  obtain ⟨s₁, hbreaks, s₂, hdeclared, s₃, hsymbols, s₄, htable, -⟩ := h
  rw [Grammar.table, hsplit, Grammar.rows_append] at htable
  simp only [Grammar.row, mul_assoc, begins_mul] at htable
  obtain ⟨s₅, hrule, s₆, hrs, s₇, hlabel, -⟩ := htable
  refine exists_of_begins_token (show Begins (_ * Grammar.token r.1) text s₇ from ?_)
  simp only [mul_assoc, begins_mul]
  exact ⟨s₁, hbreaks, s₂, hdeclared, s₃, hsymbols, s₅, hrule, s₆, hrs, (begins_numeral.mp hlabel).2⟩

/-! ## Repeated parts -/

theorem nextIs_congr {t : Text} (h : skipGaps s = skipGaps t) : nextIs p s = nextIs p t := by
  rw [nextIs, nextIs, h]

section

variable {α β : Type} {part : Reader α} {k : Nat} {as : List α}

/-- Where a part follows and none does in the end, that part is read first. -/
theorem exists_first_of_manyWithin (h : manyWithin p part k s = .ok (as, rest))
    (hs : nextIs p s = true) (hrest : nextIs p rest = false) :
    ∃ k' mid a as', part s = .ok (a, mid) ∧ manyWithin p part k' mid = .ok (as', rest) ∧
      a :: as' = as := by
  cases k with
  | zero =>
    obtain ⟨-, rfl⟩ := Prod.mk.inj (Except.ok.inj h)
    exact absurd hrest (hs ▸ Bool.true_eq_false_eq_False)
  | succ k => exact ⟨k, (manyWithin_eq_ok_of_nextIs hs).mp h⟩

/-- **A part that follows others is read where they end**, and is kept after as many. -/
theorem exists_getElem?_of_manyWithin {f : α → β} {L : β → Language CodePoint}
    {stop : Text → Prop}
    (hpart : ∀ s b rest, stop s → (part.Yields f s b rest ↔ Begins (L b) s rest ∧ stop rest))
    (hbegin : ∀ s b rest, Begins (L b) s rest →
      nextIs p s = true ∧ stop s ∧ rest.length < s.length)
    (h : manyWithin p part k s = .ok (as, rest)) (hrest : nextIs p rest = false)
    {bs : List β} (hbs : Begins (bs.map L).prod s m) (hm : stop m) (hnext : nextIs p m = true) :
    ∃ a t, part m = .ok (a, t) ∧ as[bs.length]? = some a := by
  have hs : nextIs p s = true :=
    stop_of_begins_prod _ (fun s b t h => (hbegin s b t h).1) hnext hbs
  induction bs generalizing k s as with
  | nil =>
    obtain rfl := begins_one.mp hbs
    obtain ⟨_, mid, a, as, ha, -, rfl⟩ := exists_first_of_manyWithin h hs hrest
    exact ⟨a, mid, ha, rfl⟩
  | cons b bs ih =>
    obtain ⟨t, hb, hbs⟩ := begins_mul.mp hbs
    have ht := stop_of_begins_prod stop (fun s b t h => (hbegin s b t h).2.1) hm hbs
    obtain ⟨_, mid, a, as, ha, has, rfl⟩ := exists_first_of_manyWithin h hs hrest
    obtain ⟨a', ha', -⟩ := (hpart s b t (hbegin s b t hb).2.1).mpr ⟨hb, ht⟩
    obtain ⟨-, rfl⟩ := Prod.mk.inj (Except.ok.inj (ha.symm.trans ha'))
    exact ih has hbs (stop_of_begins_prod _ (fun s b t h => (hbegin s b t h).1) hnext hbs)

end

/-! ## Symbols -/

/-- What is left where a symbol is read is kept with it. -/
theorem exists_of_symbol_eq_ok {q : Symbol × Nat} (h : symbol s = .ok (q, rest)) :
    ∃ a, q = (a, (skipGaps s).length) := by
  obtain ⟨a, n⟩ := q
  exact ⟨a, congrArg _ (symbol_eq_ok.mp h).2.symm⟩

/-- **A symbol is kept with what is left after those before it.** -/
theorem exists_getElem?_symbols {ps : List (Symbol × Nat)}
    (h : many isSymbolChar symbol s = .ok (ps, rest)) {as : List Symbol}
    (has : Begins (Grammar.leading as * Grammar.gaps) s m) (hm : skipGaps m = m)
    (hnext : nextIs isSymbolChar m = true) : ∃ a, ps[as.length]? = some (a, m.length) := by
  have hrest : nextIs isSymbolChar rest = false := (symbols_yields_iff.mp ⟨ps, h, rfl⟩).2
  obtain ⟨t, has, hgaps⟩ := begins_mul.mp has
  have ht : skipGaps t = m := (skipGaps_eq_of_begins hgaps).trans hm
  cases as with
  | nil =>
    obtain rfl := begins_one.mp has
    have hs : nextIs isSymbolChar s = true := (nextIs_congr (ht.trans hm.symm)).trans hnext
    obtain ⟨_, _, q, _, hq, -, rfl⟩ := exists_first_of_manyWithin h hs hrest
    obtain ⟨a, rfl⟩ := exists_of_symbol_eq_ok hq
    exact ⟨a, ht ▸ rfl⟩
  | cons c cs =>
    obtain ⟨u, hsymbols, w, hw, rfl⟩ := begins_mul.mp has
    obtain ⟨g, hg, rfl⟩ := Grammar.mem_gap.mp hw
    obtain ⟨mid, hc, hcs⟩ := begins_mul.mp hsymbols
    -- the earlier symbols end at the gap after them
    have hu : skipGaps ([g] ++ t) = m := (List.dropWhile_cons_of_pos hg).trans ht
    have hstop : StopsAt isSymbolChar ([g] ++ t) := fun d hd =>
      Option.some.inj hd ▸ isSymbolChar_of_isGap g hg
    have hmid := stop_of_begins_prod _ (fun _ _ _ h => (begins_gap_symbol h).2.1) hstop hcs
    obtain ⟨q, hq, -⟩ := symbol_yields_iff.mpr ⟨hc, hmid⟩
    obtain ⟨_, _, q', ps, hq', hps, rfl⟩ :=
      exists_first_of_manyWithin h (nextIs_of_begins_symbol hc).1 hrest
    obtain ⟨-, rfl⟩ := Prod.mk.inj (Except.ok.inj (hq'.symm.trans hq))
    obtain ⟨q, _, hq, hget⟩ := exists_getElem?_of_manyWithin
      (fun s a rest hs => by rw [begins_gap_symbol_iff hs, symbol_yields_iff])
      (fun _ _ _ => begins_gap_symbol) hps hrest hcs hstop
      ((nextIs_congr (hu.trans hm.symm)).trans hnext)
    obtain ⟨a, rfl⟩ := exists_of_symbol_eq_ok hq
    exact ⟨a, hu ▸ hget⟩

/-! ## Rows -/

/-- What is left where a row is read is kept with it. -/
theorem labelRest_of_row_eq_ok {r : Row} (h : row s = .ok (r, rest)) :
    r.labelRest = (skipGaps s).length := by
  obtain ⟨_, -, h⟩ := bind_eq_ok.mp h
  obtain ⟨_, -, h⟩ := bind_eq_ok.mp h
  obtain ⟨_, -, h⟩ := bind_eq_ok.mp h
  obtain ⟨_, -, h⟩ := bind_eq_ok.mp h
  obtain ⟨_, -, h⟩ := bind_eq_ok.mp h
  exact (Prod.mk.inj (Except.ok.inj h)).1 ▸ rfl

/-- **A row is kept with what is left after those before it.** -/
theorem exists_getElem?_rows {ls : List Row} (h : table s = .ok (ls, rest))
    {rs : List (Digits × List (List Digits))}
    (hrs : Begins (Grammar.rule * (rs.map Grammar.row).prod * Grammar.gaps) s m)
    (hm : skipGaps m = m) (hnext : nextIs CodePoint.isDigit m = true) :
    ∃ r, ls[rs.length]? = some r ∧ r.labelRest = m.length := by
  obtain ⟨t, hrs, hgaps⟩ := begins_mul.mp hrs
  obtain ⟨u, hrule, hrs⟩ := begins_mul.mp hrs
  have ht : skipGaps t = m := (skipGaps_eq_of_begins hgaps).trans hm
  have htnext : nextIs CodePoint.isDigit t = true := (nextIs_congr (ht.trans hm.symm)).trans hnext
  have hunext : nextIs CodePoint.isDigit u = true :=
    stop_of_begins_prod _ (fun _ _ _ h => (begins_row h).1) htnext hrs
  have hstop : ∀ {v}, nextIs CodePoint.isDigit v = true → dropBreaks v = v := fun h =>
    dropBreaks_eq_self (nextIs_eq_false_of h isBreakChar_of_isDigit)
  obtain ⟨s₁, hdashes, first, s₂, hfirst, more, s₃, hmore, -, rfl⟩ := table_eq_ok.mp h
  obtain rfl : s₁ = u := Except.ok.inj (hdashes.symm.trans (dashes_eq_ok.mpr ⟨hrule, hstop hunext⟩))
  have hs₂ : dropBreaks s₂ = s₂ := (row_yields_iff.mp ⟨first, hfirst, rfl⟩).2
  have hs₃ := ((moreRows_yields_iff hs₂).mp ⟨more, hmore, rfl⟩).2.2
  have hall : manyWithin CodePoint.isDigit row (s₂.length + 1) s₁ = .ok (first :: more, s₃) :=
    (manyWithin_eq_ok_of_nextIs hunext).mpr ⟨s₂, first, more, hfirst, hmore, rfl⟩
  obtain ⟨r, _, hr, hget⟩ := exists_getElem?_of_manyWithin (fun _ _ _ _ => row_yields_iff)
    (fun _ _ _ => begins_row) hall hs₃ hrs (hstop htnext) htnext
  exact ⟨r, hget, (labelRest_of_row_eq_ok hr).trans (congrArg _ ht)⟩

/-! ## The description -/

variable {l : Layout}

/-- **What a layout is read from after the first line**, where that stands in the text. -/
theorem lines_of_readAll_eq_ok (h : readAll s = .ok (l, rest)) {s₁ s₂ : Text}
    (hbreaks : Begins (1 + Grammar.lineEnds) s s₁)
    (hline : Begins (Grammar.line ["|Q|", ":"] (Grammar.numeral d.declared)) s₁ s₂)
    (hnext : nextIs isBreakChar s₂ = false) :
    ∃ s₃ s₄, line ["Sigma", ":"] (many isSymbolChar symbol) s₂ = .ok (l.symbols, s₃) ∧
      table s₃ = .ok (l.rows, s₄) := by
  obtain ⟨_, rfl, _, _, hdeclared, _, s₃, hsymbols, _, s₄, hrows, _, _, -, _, -, _, _, -, rfl, -⟩ :=
    readAll_eq_ok.mp h
  rw [(optionalBreaks_eq_iff (nextIs_of_begins_line rfl rfl hline)).mpr hbreaks,
    (line_numeral_eq_ok (by decide)).mpr ⟨hline, dropBreaks_eq_self hnext⟩] at hdeclared
  obtain ⟨-, rfl⟩ := Prod.mk.inj (Except.ok.inj hdeclared)
  exact ⟨s₃, s₄, hsymbols, hrows⟩

theorem begins_token_self (w rest : Text) : Begins (Grammar.token w) (w ++ rest) rest :=
  ⟨w, Language.append_mem_mul (Language.nil_mem_kstar Grammar.gap) rfl, rfl⟩

/-- **A symbol is kept with what is left where it stands.** -/
theorem exists_of_symbolAfter (h : readAll text = .ok (l, rest)) {as : List Symbol} {a : Symbol}
    (ha : IsSymbol a) {before : Text} (hbefore : d.SymbolAfter as a text before) :
    ∃ after, text = before ++ after ∧ ∃ b, l.symbols[as.length]? = some (b, after.length) := by
  obtain ⟨hmem, after, rfl⟩ := hbefore
  obtain ⟨hne, hchars⟩ := isSymbol_iff.mp ha
  have hself := begins_token_self a after
  have hskip := (begins_token (isToken_of_forall isSymbolChar_of_isGap hne hchars)).mp hself
  have hnext := (nextIs_of_begins_symbol (begins_symbol.mpr ⟨ha, hself⟩)).1
  refine ⟨a ++ after, List.append_assoc _ _ _, ?_⟩
  have hbegins : Begins (Grammar.beforeSymbol d as) (before ++ a ++ after)
    (a ++ after) := ⟨before, hmem, List.append_assoc _ _ _⟩
  simp only [Grammar.beforeSymbol, mul_assoc, begins_mul] at hbegins
  obtain ⟨s₁, hbreaks, s₂, hdeclared, s₃, hsigma, s₄, has, hgaps⟩ := hbegins
  obtain ⟨_, _, hline, -⟩ :=
    lines_of_readAll_eq_ok h hbreaks hdeclared (nextIs_of_begins_tokens rfl rfl hsigma)
  obtain ⟨_, hwords, _, hsymbols, -⟩ := line_eq_ok.mp hline
  obtain rfl := Except.ok.inj (hwords.symm.trans ((words_eq_ok (by decide)).mpr hsigma))
  exact exists_getElem?_symbols hsymbols (begins_mul.mpr ⟨s₄, has, hgaps⟩) hskip hnext

/-- **A row is kept with what is left where its label stands.** -/
theorem exists_of_labelAfter (h : readAll text = .ok (l, rest))
    {rs : List (Digits × List (List Digits))} {label : Digits} (hlabel : IsNumeral label)
    {before : Text} (hbefore : d.LabelAfter rs label text before) :
    ∃ after, text = before ++ after ∧
      ∃ r, l.rows[rs.length]? = some r ∧ r.labelRest = after.length := by
  obtain ⟨hmem, after, rfl⟩ := hbefore
  have hself := begins_token_self label after
  have hskip := (begins_token (isToken_of_forall isDigit_of_isGap hlabel.1 hlabel.2)).mp hself
  have hnext := nextIs_of_begins_numeral (begins_numeral.mpr ⟨hlabel, hself⟩)
  refine ⟨label ++ after, List.append_assoc _ _ _, ?_⟩
  have hbegins : Begins (Grammar.beforeRow d rs) (before ++ label ++ after) (label ++ after) :=
    ⟨before, hmem, List.append_assoc _ _ _⟩
  simp only [Grammar.beforeRow, mul_assoc, begins_mul] at hbegins
  obtain ⟨s₁, hbreaks, s₂, hdeclared, s₃, hsymbols, s₄, hrule, s₅, hrs, hgaps⟩ := hbegins
  obtain ⟨_, _, hline, htable⟩ :=
    lines_of_readAll_eq_ok h hbreaks hdeclared (nextIs_of_begins_line rfl rfl hsymbols)
  obtain ⟨ps, hps, -⟩ := (line_yields_iff (by decide) (fun _ _ => symbols_yields_iff)
    fun s rest h => nextIs_of_begins_lineEnds rfl rfl h).mpr
      ⟨hsymbols, dropBreaks_eq_self (nextIs_of_begins_rule hrule)⟩
  obtain ⟨-, rfl⟩ := Prod.mk.inj (Except.ok.inj (hline.symm.trans hps))
  refine exists_getElem?_rows htable ?_ hskip hnext
  simp only [mul_assoc, begins_mul]
  exact ⟨s₄, hrule, s₅, hrs, hgaps⟩

/-- **A layout keeps the place of each symbol**, of which there is one. -/
theorem exists_symbolAfter_iff (hread : read text = .ok l) {ps qs : List (Symbol × Nat)}
    {a : Symbol} {n : Nat} (hl : l.symbols = ps ++ (a, n) :: qs) :
    ∃ before, (∀ u, l.description.SymbolAfter (ps.map (·.1)) a text u ↔ u = before) ∧
      positionOf text n = positionAfter before := by
  have htext := exists_read_eq_ok_iff.mp ⟨l, hread, rfl⟩
  have hsplit : l.description.symbols = ps.map (·.1) ++ a :: qs.map (·.1) := by
    rw [description, hl, List.map_append, List.map_cons]
  have hmem : a ∈ l.description.symbols :=
    hsplit ▸ List.mem_append_right _ List.mem_cons_self
  have ha : IsSymbol a := (Grammar.wellFormed_of_mem_texts htext).2 a hmem
  refine exists_eq_iff_of_length (exists_symbolAfter htext hsplit) fun u hu => ?_
  obtain ⟨after, huv, b, hget⟩ := exists_of_symbolAfter (read_eq_ok.mp hread) ha hu
  rw [hl, List.length_map, List.getElem?_append_right (Nat.le_refl _), Nat.sub_self] at hget
  exact ⟨after, huv, (Prod.mk.inj (Option.some.inj hget)).2.symm⟩

/-- **A layout keeps the place of the label of each row**, of which there is one. -/
theorem exists_labelAfter_iff (hread : read text = .ok l) {ls ls' : List Row} {r : Row}
    (hl : l.rows = ls ++ r :: ls') :
    ∃ before,
      (∀ u, l.description.LabelAfter (ls.map Row.description) r.label text u ↔ u = before) ∧
      positionOf text r.labelRest = positionAfter before := by
  have htext := exists_read_eq_ok_iff.mp ⟨l, hread, rfl⟩
  have hsplit : l.description.rows =
      ls.map Row.description ++ r.description :: ls'.map Row.description := by
    rw [← List.map_cons, ← List.map_append, ← hl]
    rfl
  have hlabel : IsNumeral r.label := by
    obtain ⟨-, -, -, hrows⟩ :=
      Description.forall_mem_numerals.mp (Grammar.wellFormed_of_mem_texts htext).1
    exact (hrows r.description (hsplit ▸ List.mem_append_right _ List.mem_cons_self)).1
  refine exists_eq_iff_of_length (exists_labelAfter htext hsplit) fun u hu => ?_
  obtain ⟨after, huv, r', hget, hlength⟩ := exists_of_labelAfter (read_eq_ok.mp hread) hlabel hu
  rw [hl, List.length_map, List.getElem?_append_right (Nat.le_refl _), Nat.sub_self] at hget
  exact ⟨after, huv, Option.some.inj hget ▸ hlength.symm⟩

end FiniteAutomata.Layout
