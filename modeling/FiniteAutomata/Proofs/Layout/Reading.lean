import FiniteAutomata.Proofs.Layout.Token

/-!
# Proofs/Layout/Reading — the parts of a layout are read exactly where they stand

A part of a description is read by readers of its parts, each of which takes a word of its language
and ends where the next begins. Parts that are repeated are read as long as one follows
(`manyWithin_yields_iff`). So a reader yields what a word of the language of its part says, up to
what does not belong to the part (`set_eq_ok`, `row_yields_iff`, `symbols_yields_iff`).
-/

open scoped Computability

namespace FiniteAutomata.Layout

open Text (StopsAt)

variable {s rest : Text} {p : CodePoint → Bool}

/-- **The reader takes off the text what says `b`**, after which `rest` is left; what it returns may
say more (`f`). -/
def Reader.Yields {α β : Type} (part : Reader α) (f : α → β) (s : Text) (b : β)
    (rest : Text) : Prop :=
  ∃ a, part s = .ok (a, rest) ∧ f a = b

/-! ## Repeated parts -/

section

variable {α β : Type} {part : Reader α} {k : Nat} {as : List α}

theorem manyWithin_of_not_nextIs (h : nextIs p s = false) :
    manyWithin p part k s = .ok ([], s) := by
  cases k with
  | zero => rfl
  | succ k => rw [manyWithin, if_neg (h ▸ Bool.false_ne_true)]

theorem manyWithin_eq_ok_of_nextIs (h : nextIs p s = true) :
    manyWithin p part (k + 1) s = .ok (as, rest) ↔ ∃ mid a as', part s = .ok (a, mid) ∧
      manyWithin p part k mid = .ok (as', rest) ∧ a :: as' = as := by
  rw [manyWithin, if_pos h, bind_eq_ok, Prod.exists, exists_comm]
  refine exists_congr fun mid => exists_congr fun a => ?_
  constructor
  · rintro ⟨ha, h⟩
    obtain ⟨⟨as', rest'⟩, has, h⟩ := bind_eq_ok.mp h
    obtain ⟨rfl, rfl⟩ := Prod.mk.inj (Except.ok.inj h)
    exact ⟨as', ha, has, rfl⟩
  · rintro ⟨as', ha, has, rfl⟩
    exact ⟨ha, bind_eq_ok.mpr ⟨(as', rest), has, rfl⟩⟩

theorem many_eq_ok_of_nextIs (h : nextIs p s = true) :
    many p part s = .ok (as, rest) ↔ ∃ mid a as', part s = .ok (a, mid) ∧
      manyWithin p part (s.length - 1) mid = .ok (as', rest) ∧ a :: as' = as := by
  cases s with
  | nil => exact nomatch h
  | cons c s => exact manyWithin_eq_ok_of_nextIs h

/-- What follows a part ends it: another part, or what is left after all of them. -/
theorem stop_of_begins_prod {L : β → Language CodePoint} (stop : Text → Prop)
    (hbegin : ∀ s b t, Begins (L b) s t → stop s) (hrest : stop rest) {bs : List β}
    (h : Begins (bs.map L).prod s rest) : stop s := by
  cases bs with
  | nil => exact begins_one.mp h ▸ hrest
  | cons b bs =>
    obtain ⟨mid, hb, _⟩ := begins_mul.mp h
    exact hbegin s b mid hb

/-- **Parts of one sort are read as long as one follows.** A part ends where `stop` holds, which is
so where another begins; what is read of a part may say more than the grammar does of it (`f`). -/
theorem manyWithin_yields_iff {f : α → β} {L : β → Language CodePoint} {stop : Text → Prop}
    (hpart : ∀ s b rest, stop s → (part.Yields f s b rest ↔ Begins (L b) s rest ∧ stop rest))
    (hbegin : ∀ s b rest, Begins (L b) s rest →
      nextIs p s = true ∧ stop s ∧ rest.length < s.length)
    {bs : List β} (hs : stop s) (hk : s.length ≤ k) :
    Reader.Yields (manyWithin p part k) (·.map f) s bs rest ↔
      Begins (bs.map L).prod s rest ∧ stop rest ∧ nextIs p rest = false := by
  have hnone : ∀ {k s bs}, stop s → nextIs p s = false →
      (Reader.Yields (manyWithin p part k) (·.map f) s bs rest ↔
        Begins (bs.map L).prod s rest ∧ stop rest ∧ nextIs p rest = false) := by
    intro k s bs hs hnext
    rw [Reader.Yields, manyWithin_of_not_nextIs hnext]
    constructor
    · rintro ⟨as, h, rfl⟩
      obtain ⟨rfl, rfl⟩ := Prod.mk.inj (Except.ok.inj h)
      exact ⟨begins_one.mpr rfl, hs, hnext⟩
    · rintro ⟨h, _, _⟩
      cases bs with
      | nil => exact ⟨[], by rw [begins_one.mp h], rfl⟩
      | cons b bs =>
        obtain ⟨mid, hb, _⟩ := begins_mul.mp h
        exact absurd (hbegin s b mid hb).1 (hnext ▸ Bool.false_ne_true)
  -- by induction on the number of steps, which the length of what is left bounds
  induction k generalizing s bs with
  | zero =>
    obtain rfl := List.length_eq_zero_iff.mp (Nat.le_zero.mp hk)
    exact hnone hs rfl
  | succ k ih =>
    cases hnext : nextIs p s with
    | false => exact hnone hs hnext
    | true =>
      simp only [Reader.Yields, manyWithin_eq_ok_of_nextIs hnext]
      constructor
      · rintro ⟨_, ⟨mid, a, as, ha, has, rfl⟩, rfl⟩
        obtain ⟨hb, hmid⟩ := (hpart s _ mid hs).mp ⟨a, ha, rfl⟩
        have hshort := (hbegin s _ mid hb).2.2
        obtain ⟨hbs, hrest⟩ := (ih hmid (by omega)).mp ⟨as, has, rfl⟩
        exact ⟨begins_mul.mpr ⟨mid, hb, hbs⟩, hrest⟩
      · rintro ⟨h, hrest, hlast⟩
        cases bs with
        | nil =>
          obtain rfl := begins_one.mp h
          exact absurd hlast (hnext ▸ Bool.true_eq_false_eq_False)
        | cons b bs =>
          obtain ⟨mid, hb, hbs⟩ := begins_mul.mp h
          have hmid := stop_of_begins_prod _ (fun s b t h => (hbegin s b t h).2.1) hrest hbs
          have hshort := (hbegin s b mid hb).2.2
          obtain ⟨a, ha, rfl⟩ := (hpart s b mid hs).mpr ⟨hb, hmid⟩
          obtain ⟨as, has, rfl⟩ := (ih hmid (by omega)).mpr ⟨hbs, hrest, hlast⟩
          exact ⟨a :: as, ⟨mid, a, as, ha, has, rfl⟩, rfl⟩

/-- Parts that are read as the grammar has them. -/
theorem many_eq_ok {L : α → Language CodePoint} {stop : Text → Prop}
    (hpart : ∀ s a rest, stop s → (part s = .ok (a, rest) ↔ Begins (L a) s rest ∧ stop rest))
    (hbegin : ∀ s a rest, Begins (L a) s rest →
      nextIs p s = true ∧ stop s ∧ rest.length < s.length) (hs : stop s) :
    many p part s = .ok (as, rest) ↔
      Begins (as.map L).prod s rest ∧ stop rest ∧ nextIs p rest = false := by
  have hpart' : ∀ s b rest, stop s →
      (part.Yields id s b rest ↔ Begins (L b) s rest ∧ stop rest) := by
    simpa [Reader.Yields] using hpart
  rw [← manyWithin_yields_iff hpart' hbegin hs le_rfl, many]
  simp [Reader.Yields]

end

/-! ## Numerals with commas between them -/

theorem commaNumeral_eq_ok {ds : Digits} :
    commaNumeral s = .ok (ds, rest) ↔
      Begins (Grammar.token [','] * Grammar.numeral ds) s rest ∧
        StopsAt CodePoint.isDigit rest := by
  rw [commaNumeral, bind_eq_ok, begins_mul, ← exists_and_right]
  refine exists_congr fun mid => ?_
  rw [word_eq_ok ⟨',', rfl, rfl⟩, numeral_eq_ok, and_assoc]
  rfl

theorem begins_commaNumeral {ds : Digits}
    (h : Begins (Grammar.token [','] * Grammar.numeral ds) s rest) :
    nextIs (· == ',') s = true ∧ StopsAt CodePoint.isDigit s ∧ rest.length < s.length := by
  obtain ⟨mid, hcomma, hnumeral⟩ := begins_mul.mp h
  refine ⟨nextIs_of_begins_token rfl hcomma, ?_, ?_⟩
  · exact stopsAt_of_nextIs isDigit_of_isGap (nextIs_of_begins_token rfl hcomma)
  · exact hnumeral.length_le.trans_lt (length_lt_of_begins_token ⟨',', rfl, rfl⟩ hcomma)

/-- **Numerals with commas between them are read up to what is neither a digit nor a comma.** -/
theorem numerals_eq_ok {ns : List Digits} (hdigit : nextIs CodePoint.isDigit rest = false)
    (hcomma : nextIs (· == ',') rest = false) :
    numerals s = .ok (ns, rest) ↔ Begins (Grammar.numerals ns) s rest := by
  have hstop : StopsAt CodePoint.isDigit rest := stopsAt_of_nextIs isDigit_of_isGap hdigit
  cases hnext : nextIs CodePoint.isDigit s with
  | false =>
    rw [numerals, if_neg (hnext ▸ Bool.false_ne_true)]
    cases ns with
    | nil => rw [Except.ok.injEq, Prod.mk.injEq, Grammar.numerals, begins_one, and_iff_right rfl]
    | cons n ns =>
      refine iff_of_false nofun fun h => ?_
      obtain ⟨mid, hn, _⟩ := begins_mul.mp h
      exact Bool.false_ne_true (hnext.symm.trans (nextIs_of_begins_numeral hn))
  | true =>
    rw [numerals, if_pos hnext, bind_eq_ok, Prod.exists]
    constructor
    · rintro ⟨n, mid, hn, h⟩
      obtain ⟨⟨ns, rest'⟩, hns, h⟩ := bind_eq_ok.mp h
      obtain ⟨rfl, rfl⟩ := Prod.mk.inj (Except.ok.inj h)
      obtain ⟨hn, hmid⟩ := numeral_eq_ok.mp hn
      have hns := (many_eq_ok (fun _ _ _ _ => commaNumeral_eq_ok)
        (fun _ _ _ => begins_commaNumeral) hmid).mp hns
      exact begins_mul.mpr ⟨mid, hn, hns.1⟩
    · intro h
      cases ns with
      | nil => exact absurd hdigit (begins_one.mp h ▸ hnext ▸ Bool.true_eq_false_eq_False)
      | cons n ns =>
        obtain ⟨mid, hn, hns⟩ := begins_mul.mp h
        have hmid := stop_of_begins_prod _ (fun _ _ _ h => (begins_commaNumeral h).2.1) hstop hns
        have hns := (many_eq_ok (fun _ _ _ _ => commaNumeral_eq_ok)
          (fun _ _ _ => begins_commaNumeral) hmid).mpr ⟨hns, hstop, hcomma⟩
        exact ⟨n, mid, numeral_eq_ok.mpr ⟨hn, hmid⟩, bind_eq_ok.mpr ⟨(ns, rest), hns, rfl⟩⟩

/-! ## Sets -/

/-- **A set is read exactly where it stands.** -/
theorem set_eq_ok {ns : List Digits} :
    set s = .ok (ns, rest) ↔ Begins (Grammar.set ns) s rest := by
  have hsteps : set s = .ok (ns, rest) ↔ ∃ s₁, word "\x7b" s = .ok s₁ ∧
      ∃ s₂, numerals s₁ = .ok (ns, s₂) ∧ word "\x7d" s₂ = .ok rest := by
    simp [set, bind_eq_ok, pure, Except.pure]
  rw [hsteps]
  simp only [Grammar.set, mul_assoc, begins_mul]
  refine exists_congr fun s₁ => and_congr (word_eq_ok ⟨'{', rfl, rfl⟩) (exists_congr fun s₂ => ?_)
  rw [word_eq_ok ⟨'}', rfl, rfl⟩]
  refine and_congr_left fun hclose => ?_
  exact numerals_eq_ok (nextIs_of_begins_token rfl hclose) (nextIs_of_begins_token rfl hclose)

theorem begins_set {ns : List Digits} (h : Begins (Grammar.set ns) s rest) :
    nextIs (· == '{') s = true ∧ rest.length < s.length := by
  rw [Grammar.set, mul_assoc] at h
  obtain ⟨mid, hopen, h⟩ := begins_mul.mp h
  exact ⟨nextIs_of_begins_token rfl hopen,
    h.length_le.trans_lt (length_lt_of_begins_token ⟨'{', rfl, rfl⟩ hopen)⟩

/-! ## Rows -/

/-- A reader and what comes after it go with the grammar, if what comes after ends what is read. -/
theorem read_and_iff {R B stop C D : Prop} (hread : R ↔ B ∧ stop) (hafter : stop → (C ↔ D))
    (hstop : D → stop) : R ∧ C ↔ B ∧ D := by
  constructor
  · rintro ⟨hR, hC⟩
    obtain ⟨hB, hs⟩ := hread.mp hR
    exact ⟨hB, (hafter hs).mp hC⟩
  · rintro ⟨hB, hD⟩
    have hs := hstop hD
    exact ⟨hread.mpr ⟨hB, hs⟩, (hafter hs).mpr hD⟩

theorem sets_eq_ok {ns : List (List Digits)} :
    many (· == '{') set s = .ok (ns, rest) ↔
      Begins (ns.map Grammar.set).prod s rest ∧ nextIs (· == '{') rest = false := by
  have hmany : many (· == '{') set s = .ok (ns, rest) ↔
      Begins (ns.map Grammar.set).prod s rest ∧ True ∧ nextIs (· == '{') rest = false :=
    many_eq_ok (fun _ _ _ _ => set_eq_ok.trans (and_iff_left trivial).symm)
      (fun _ _ _ h => ⟨(begins_set h).1, trivial, (begins_set h).2⟩) trivial
  rw [hmany, and_iff_right trivial]

/-- What a row says, without the place at which it stands. -/
def Row.description (r : Row) : Digits × List (List Digits) := (r.label, r.sets)

/-- **A row is read exactly where it stands**, with all line ends after it. -/
theorem row_yields_iff {r : Digits × List (List Digits)} :
    row.Yields Row.description s r rest ↔
      Begins (Grammar.row r) s rest ∧ dropBreaks rest = rest := by
  obtain ⟨label, _ | ⟨first, more⟩⟩ := r
  · simp [Reader.Yields, Row.description, Grammar.row, Grammar.sets, not_begins_zero, row,
      bind_eq_ok, pure, Except.pure]
  · have hsteps : row.Yields Row.description s (label, first :: more) rest ↔
        ∃ s₁, numeral s = .ok (label, s₁) ∧ ∃ s₂, word ":" s₁ = .ok s₂ ∧
          ∃ s₃, set s₂ = .ok (first, s₃) ∧
            ∃ s₄, many (· == '{') set s₃ = .ok (more, s₄) ∧ breaks s₄ = .ok rest := by
      simp [Reader.Yields, Row.description, row, bind_eq_ok, pure, Except.pure]
    rw [hsteps]
    simp only [Grammar.row, Grammar.sets, mul_assoc, begins_mul, ← exists_and_right, and_assoc]
    refine exists_congr fun s₁ => read_and_iff numeral_eq_ok (fun _ => exists_congr fun s₂ =>
      and_congr (word_eq_ok ⟨':', rfl, rfl⟩) (exists_congr fun s₃ => and_congr set_eq_ok
        (exists_congr fun s₄ => read_and_iff sets_eq_ok (fun _ => breaks_eq_ok) fun h => ?_))) ?_
    · exact nextIs_of_begins_lineEnds rfl rfl h.1
    · rintro ⟨s₂, hcolon, _⟩
      exact stopsAt_of_nextIs isDigit_of_isGap (nextIs_of_begins_token rfl hcolon)

theorem isBreakChar_of_isDigit : ∀ c, c.isDigit = true → isBreakChar c = false := by
  intro c hc
  refine Bool.eq_false_iff.mpr fun h => ?_
  obtain rfl | rfl := (by simpa [isBreakChar] using h : c = '\n' ∨ c = '\r') <;> cases hc

theorem begins_row {r : Digits × List (List Digits)} (h : Begins (Grammar.row r) s rest) :
    nextIs CodePoint.isDigit s = true ∧ dropBreaks s = s ∧ rest.length < s.length := by
  rw [Grammar.row, mul_assoc, mul_assoc] at h
  obtain ⟨mid, hlabel, h⟩ := begins_mul.mp h
  obtain ⟨mid', hcolon, h⟩ := begins_mul.mp h
  have hdigit := nextIs_of_begins_numeral hlabel
  refine ⟨hdigit, dropBreaks_eq_self (nextIs_eq_false_of hdigit isBreakChar_of_isDigit), ?_⟩
  calc rest.length ≤ mid'.length := h.length_le
    _ < mid.length := length_lt_of_begins_token ⟨':', rfl, rfl⟩ hcolon
    _ ≤ s.length := hlabel.length_le

/-- Rows after the first are read exactly where they stand, up to what is no row. -/
theorem moreRows_yields_iff {rs : List (Digits × List (List Digits))} (hs : dropBreaks s = s) :
    (many CodePoint.isDigit row).Yields (·.map Row.description) s rs rest ↔
      Begins (rs.map Grammar.row).prod s rest ∧ dropBreaks rest = rest ∧
        nextIs CodePoint.isDigit rest = false :=
  manyWithin_yields_iff (fun _ _ _ _ => row_yields_iff) (fun _ _ _ => begins_row) hs le_rfl

/-! ## Lines of dashes -/

theorem mem_dashes {w : Text} : w ∈ ({(['-'] : Text)} * {(['-'] : Text)}∗ : Language CodePoint) ↔
    w ≠ [] ∧ ∀ c ∈ w, (c == '-') = true := by
  have hdash : ∀ w : Text, w ∈ ({(['-'] : Text)} : Language CodePoint) ↔
      ∃ c : CodePoint, (c == '-') = true ∧ w = [c] :=
    fun w => ⟨fun h => ⟨'-', rfl, h⟩, fun ⟨_, hc, h⟩ => beq_iff_eq.mp hc ▸ h⟩
  rw [Language.mem_mul]
  constructor
  · rintro ⟨_, rfl, v, hv, rfl⟩
    exact ⟨List.cons_ne_nil _ _, List.forall_mem_cons.mpr ⟨rfl, (mem_kstar_of_chars hdash).mp hv⟩⟩
  · rintro ⟨hne, hw⟩
    obtain ⟨c, w, rfl⟩ := List.exists_cons_of_ne_nil hne
    obtain ⟨hc, hw⟩ := List.forall_mem_cons.mp hw
    exact ⟨[c], (hdash _).mpr ⟨c, hc, rfl⟩, w, (mem_kstar_of_chars hdash).mpr hw, rfl⟩

theorem begins_gaps_mul {L : Language CodePoint} :
    Begins (Grammar.gaps * L) s rest ↔ ∃ w ∈ L, Begins (Grammar.token w) s rest := by
  simp only [Grammar.token, begins_mul]
  constructor
  · rintro ⟨mid, hgaps, w, hw, h⟩
    exact ⟨w, hw, mid, hgaps, w, rfl, h⟩
  · rintro ⟨_, hw, mid, hgaps, w, rfl, h⟩
    exact ⟨mid, hgaps, w, hw, h⟩

/-- **A line of dashes is read exactly where it stands**, with all line ends after it. -/
theorem dashes_eq_ok :
    dashes s = .ok rest ↔ Begins Grammar.rule s rest ∧ dropBreaks rest = rest := by
  have hgap : ∀ c : CodePoint, isGap c = true → (c == '-') = false := by
    intro c hc
    obtain rfl | rfl := isGap_iff.mp hc <;> rfl
  have hrun : ∀ mid : Text, (∃ w, run (· == '-') s = .ok (w, mid)) ↔
      Begins (Grammar.gaps * ({(['-'] : Text)} * {(['-'] : Text)}∗)) s mid ∧
        StopsAt (· == '-') mid := by
    intro mid
    simp only [run_eq_ok hgap, begins_gaps_mul, mem_dashes, exists_and_right]
  rw [dashes, bind_eq_ok, Prod.exists, exists_comm, Grammar.rule, begins_mul, ← exists_and_right]
  refine exists_congr fun mid => ?_
  change (∃ w, run (· == '-') s = .ok (w, mid) ∧ breaks mid = .ok rest) ↔ _
  rw [and_assoc, exists_and_right]
  refine read_and_iff (hrun mid) (fun _ => breaks_eq_ok) fun h => stopsAt_of_nextIs hgap ?_
  exact nextIs_of_begins_lineEnds rfl rfl h.1

/-- A line of dashes begins with a dash. -/
theorem nextIs_of_begins_rule (h : Begins Grammar.rule s rest) : nextIs p s = p '-' := by
  obtain ⟨mid, h, _⟩ := begins_mul.mp h
  obtain ⟨w, hw, h⟩ := begins_gaps_mul.mp h
  obtain ⟨hne, hw⟩ := mem_dashes.mp hw
  obtain ⟨c, w, rfl⟩ := List.exists_cons_of_ne_nil hne
  obtain rfl := beq_iff_eq.mp (hw c List.mem_cons_self)
  exact nextIs_of_begins_token rfl h

/-! ## Symbols -/

theorem nextIs_of_begins_symbol {a : Symbol} (h : Begins (Grammar.symbol a) s rest) :
    nextIs isSymbolChar s = true ∧ rest.length < s.length := by
  obtain ⟨ha, h⟩ := begins_symbol.mp h
  obtain ⟨hne, hchars⟩ := isSymbol_iff.mp ha
  have htoken := isToken_of_forall isSymbolChar_of_isGap hne hchars
  obtain ⟨c, w, hcw⟩ := List.exists_cons_of_ne_nil hne
  have hskip := (begins_token htoken).mp h
  rw [hcw] at hskip hchars
  exact ⟨(nextIs_of_skipGaps hskip).trans (hchars c List.mem_cons_self),
    length_lt_of_begins_token htoken h⟩

theorem begins_symbol_congr {a : Symbol} {t : Text} (h : skipGaps s = skipGaps t) :
    Begins (Grammar.symbol a) s rest ↔ Begins (Grammar.symbol a) t rest := by
  rw [begins_symbol, begins_symbol]
  refine and_congr_right fun ha => ?_
  obtain ⟨hne, hchars⟩ := isSymbol_iff.mp ha
  have htoken := isToken_of_forall isSymbolChar_of_isGap hne hchars
  rw [begins_token htoken, begins_token htoken, h]

/-- Where no symbol goes on, one begins only after a gap. -/
theorem begins_gap_symbol_iff {a : Symbol} (hs : StopsAt isSymbolChar s) :
    Begins (Grammar.gap * Grammar.symbol a) s rest ↔ Begins (Grammar.symbol a) s rest := by
  have hskip : ∀ {c t}, isGap c = true → skipGaps (c :: t) = skipGaps t := fun {c t} hc =>
    List.dropWhile_cons_of_pos hc
  constructor
  · intro h
    obtain ⟨mid, ⟨w, hw, rfl⟩, ha⟩ := begins_mul.mp h
    obtain ⟨c, hc, rfl⟩ := Grammar.mem_gap.mp hw
    exact (begins_symbol_congr (hskip hc)).mpr ha
  · intro h
    obtain ⟨c, t, hct, hc⟩ := nextIs_eq_true_iff.mp (nextIs_of_begins_symbol h).1
    cases s with
    | nil => exact nomatch hct
    | cons d s =>
      have hd : isGap d = true := by
        by_contra hd
        have hself : skipGaps (d :: s) = d :: s := List.dropWhile_cons_of_neg hd
        obtain ⟨rfl, rfl⟩ := List.cons.inj (hself.symm.trans hct)
        exact Bool.false_ne_true ((hs d rfl).symm.trans hc)
      exact begins_mul.mpr ⟨s, ⟨[d], Grammar.mem_gap.mpr ⟨d, hd, rfl⟩, rfl⟩,
        (begins_symbol_congr (hskip hd)).mp h⟩

theorem begins_gap_symbol {a : Symbol} (h : Begins (Grammar.gap * Grammar.symbol a) s rest) :
    nextIs isSymbolChar s = true ∧ StopsAt isSymbolChar s ∧ rest.length < s.length := by
  have hs : StopsAt isSymbolChar s := by
    obtain ⟨mid, ⟨w, hw, rfl⟩, _⟩ := begins_mul.mp h
    obtain ⟨c, hc, rfl⟩ := Grammar.mem_gap.mp hw
    exact fun d hd => Option.some.inj hd ▸ isSymbolChar_of_isGap c hc
  obtain ⟨hnext, hlength⟩ := nextIs_of_begins_symbol ((begins_gap_symbol_iff hs).mp h)
  exact ⟨hnext, hs, hlength⟩

theorem symbol_yields_iff {a : Symbol} : symbol.Yields (·.1) s a rest ↔
    Begins (Grammar.symbol a) s rest ∧ StopsAt isSymbolChar rest := by
  simp [Reader.Yields, symbol_eq_ok]

/-- Symbols after the first are read exactly where they stand, up to what is none. -/
theorem moreSymbols_yields_iff {k : Nat} {as : List Symbol} (hs : StopsAt isSymbolChar s)
    (hk : s.length ≤ k) :
    Reader.Yields (manyWithin isSymbolChar symbol k) (·.map (·.1)) s as rest ↔
      Begins (as.map fun a => Grammar.gap * Grammar.symbol a).prod s rest ∧
        StopsAt isSymbolChar rest ∧ nextIs isSymbolChar rest = false := by
  refine manyWithin_yields_iff (fun s a rest hs => ?_) (fun _ _ _ => begins_gap_symbol) hs hk
  rw [begins_gap_symbol_iff hs, symbol_yields_iff]

/-- **Symbols are read exactly where they stand**, up to what is none. -/
theorem symbols_yields_iff {as : List Symbol} :
    (many isSymbolChar symbol).Yields (·.map (·.1)) s as rest ↔
      Begins (Grammar.symbols as) s rest ∧ nextIs isSymbolChar rest = false := by
  constructor
  · rintro ⟨ps, h, rfl⟩
    cases hnext : nextIs isSymbolChar s with
    | false =>
      rw [many, manyWithin_of_not_nextIs hnext] at h
      obtain ⟨rfl, rfl⟩ := Prod.mk.inj (Except.ok.inj h)
      exact ⟨begins_one.mpr rfl, hnext⟩
    | true =>
      obtain ⟨mid, q, ps, hq, hps, rfl⟩ := (many_eq_ok_of_nextIs hnext).mp h
      obtain ⟨ha, hmid⟩ := symbol_yields_iff.mp ⟨q, hq, rfl⟩
      have hlength := Nat.le_sub_one_of_lt (nextIs_of_begins_symbol ha).2
      obtain ⟨hps, _, hlast⟩ := (moreSymbols_yields_iff hmid hlength).mp ⟨ps, hps, rfl⟩
      exact ⟨begins_mul.mpr ⟨mid, ha, hps⟩, hlast⟩
  · rintro ⟨h, hlast⟩
    cases as with
    | nil =>
      obtain rfl := begins_one.mp h
      exact ⟨[], manyWithin_of_not_nextIs hlast, rfl⟩
    | cons a as =>
      obtain ⟨mid, ha, has⟩ := begins_mul.mp h
      obtain ⟨hnext, hshort⟩ := nextIs_of_begins_symbol ha
      have hrest := stopsAt_of_nextIs isSymbolChar_of_isGap hlast
      have hmid := stop_of_begins_prod _ (fun _ _ _ h => (begins_gap_symbol h).2.1) hrest has
      obtain ⟨q, hq, rfl⟩ := symbol_yields_iff.mpr ⟨ha, hmid⟩
      obtain ⟨ps, hps, rfl⟩ := (moreSymbols_yields_iff hmid (Nat.le_sub_one_of_lt hshort)).mpr
        ⟨has, hrest, hlast⟩
      exact ⟨q :: ps, (many_eq_ok_of_nextIs hnext).mpr ⟨mid, q, ps, hq, hps, rfl⟩, rfl⟩

end FiniteAutomata.Layout
