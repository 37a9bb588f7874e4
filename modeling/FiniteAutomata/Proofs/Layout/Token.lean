import FiniteAutomata.Proofs.Layout.Grammar
import FiniteAutomata.Proofs.Outcome
import FiniteAutomata.Proofs.Text.Numeral

/-!
# Proofs/Layout/Token — tokens and line ends are read exactly where they stand

A reader takes a word of the language of its token, and as much as it can: its specification says
which word that was, and with what the rest does not go on (`word_eq_ok`, `numeral_eq_ok`,
`symbol_eq_ok`, `breaks_eq_ok`). What follows a token decides the latter by its first character
after the gaps (`nextIs`), since gaps belong to no token.
-/

open scoped Computability

namespace FiniteAutomata.Layout

open Text (StopsAt takeWhile_append_stop dropWhile_append_stop)

variable {s rest : Text} {p q : CodePoint → Bool}

/-! ## Gaps -/

theorem isGap_iff {c : CodePoint} : isGap c = true ↔ c = ' ' ∨ c = '\t' := by
  simp [isGap]

theorem Grammar.mem_gap {w : Text} : w ∈ gap ↔ ∃ c, isGap c = true ∧ w = [c] := by
  simp only [isGap_iff, or_and_right, exists_or, exists_eq_left]
  exact Iff.rfl

/-- The words of characters of one sort. -/
theorem mem_kstar_of_chars {L : Language CodePoint} (hL : ∀ w, w ∈ L ↔ ∃ c, p c = true ∧ w = [c])
    {w : Text} : w ∈ L∗ ↔ ∀ c ∈ w, p c = true := by
  rw [Language.mem_kstar]
  constructor
  · rintro ⟨ws, rfl, hws⟩ c hc
    obtain ⟨v, hv, hc⟩ := List.mem_flatten.mp hc
    obtain ⟨d, hd, rfl⟩ := (hL v).mp (hws v hv)
    exact List.mem_singleton.mp hc ▸ hd
  · refine fun hw => ⟨w.map fun c => [c], by simp [← List.flatMap_def], fun v hv => ?_⟩
    obtain ⟨c, hc, rfl⟩ := List.mem_map.mp hv
    exact (hL _).mpr ⟨c, hw c hc, rfl⟩

theorem Grammar.mem_gaps {w : Text} : w ∈ gaps ↔ ∀ c ∈ w, isGap c = true :=
  mem_kstar_of_chars fun _ => mem_gap

/-- What is skipped are gaps. -/
theorem begins_gaps_skipGaps (s : Text) : Begins Grammar.gaps s (skipGaps s) :=
  ⟨s.takeWhile isGap, Grammar.mem_gaps.mpr fun _ hc => List.mem_takeWhile_imp hc,
    List.takeWhile_append_dropWhile.symm⟩

/-- **What stands after gaps is not told apart from what stands before them.** -/
theorem skipGaps_eq_of_begins (h : Begins Grammar.gaps s rest) : skipGaps s = skipGaps rest := by
  obtain ⟨w, hw, rfl⟩ := h
  exact List.dropWhile_append_of_pos (Grammar.mem_gaps.mp hw)

theorem skipGaps_eq_self (h : StopsAt isGap s) : skipGaps s = s :=
  dropWhile_append_stop (fun _ hc => absurd hc List.not_mem_nil) h

/-! ### The next character -/

theorem nextIs_of_skipGaps {c : CodePoint} (h : skipGaps s = c :: rest) : nextIs p s = p c := by
  rw [nextIs, h]

theorem nextIs_of_skipGaps_nil (h : skipGaps s = []) : nextIs p s = false := by
  rw [nextIs, h]

theorem nextIs_eq_true_iff : nextIs p s = true ↔ ∃ c t, skipGaps s = c :: t ∧ p c = true := by
  unfold nextIs
  split
  · rename_i c t h
    simp [h]
  · rename_i h
    simp [h]

/-- A text that goes on with a character of one sort does not go on with one of another. -/
theorem nextIs_eq_false_of (h : nextIs q s = true) (hqp : ∀ c, q c = true → p c = false) :
    nextIs p s = false := by
  obtain ⟨c, t, hs, hc⟩ := nextIs_eq_true_iff.mp h
  exact (nextIs_of_skipGaps hs).trans (hqp c hc)

/-- No run goes on where something else follows, perhaps after gaps. -/
theorem stopsAt_of_nextIs (hp : ∀ c, isGap c = true → p c = false) (h : nextIs p s = false) :
    StopsAt p s := by
  intro c hc
  obtain ⟨t, rfl⟩ := List.head?_eq_some_iff.mp hc
  cases hgap : isGap c with
  | true => exact hp c hgap
  | false =>
    have hskip : skipGaps (c :: t) = c :: t := skipGaps_eq_self fun d hd =>
      Option.some.inj hd ▸ hgap
    exact (nextIs_of_skipGaps hskip).symm.trans h

/-! ## Tokens -/

/-- What begins with no gap. -/
def IsToken (w : Text) : Prop := ∃ c ∈ w.head?, isGap c = false

instance : DecidablePred IsToken
  | [] => isFalse nofun
  | c :: _ => decidable_of_iff (isGap c = false)
      ⟨fun h => ⟨c, rfl, h⟩, fun ⟨_, hc, h⟩ => Option.some.inj hc ▸ h⟩

/-- **A token stands where the gaps before it end.** -/
theorem begins_token {w : Text} (hw : IsToken w) :
    Begins (Grammar.token w) s rest ↔ skipGaps s = w ++ rest := by
  have hstop : StopsAt isGap (w ++ rest) := by
    obtain ⟨c, hc, hgap⟩ := hw
    intro d hd
    rw [List.head?_append, hc, Option.some_or] at hd
    exact Option.some.inj hd ▸ hgap
  rw [Grammar.token, begins_mul]
  constructor
  · rintro ⟨_, hgaps, _, rfl, rfl⟩
    rw [skipGaps_eq_of_begins hgaps, skipGaps_eq_self hstop]
  · exact fun h => ⟨skipGaps s, begins_gaps_skipGaps s, w, rfl, h⟩

theorem dropWord?_eq_some {w : Text} : dropWord? w s = some rest ↔ s = w ++ rest := by
  induction w generalizing s with
  | nil => simp [dropWord?]
  | cons c w ih =>
    cases s with
    | nil => simp [dropWord?]
    | cons d s =>
      unfold dropWord?
      split
      · rename_i h
        simp [ih, h]
      · rename_i h
        simp [Ne.symm h]

/-- **A fixed token is read exactly where it stands.** -/
theorem word_eq_ok {t : Text} (ht : IsToken t) :
    word t s = .ok rest ↔ Begins (Grammar.token t) s rest := by
  rw [begins_token ht, ← dropWord?_eq_some, word]
  split <;> simp_all

theorem words_eq_ok {ts : List Text} (hts : ∀ t ∈ ts, IsToken t) :
    words ts s = .ok rest ↔ Begins (Grammar.tokens ts) s rest := by
  induction ts generalizing s with
  | nil => exact Except.ok.injEq s rest ▸ begins_one.symm
  | cons t ts ih =>
    obtain ⟨ht, hts⟩ := List.forall_mem_cons.mp hts
    rw [Grammar.tokens, List.map_cons, List.prod_cons, begins_mul, words, bind_eq_ok]
    exact exists_congr fun mid => and_congr (word_eq_ok ht) (ih hts)

/-- A token is not empty. -/
theorem length_lt_of_begins_token {w : Text} (hw : IsToken w)
    (h : Begins (Grammar.token w) s rest) : rest.length < s.length := by
  have hskip := (begins_token hw).mp h
  obtain ⟨c, hc, _⟩ := hw
  obtain ⟨w, rfl⟩ := List.head?_eq_some_iff.mp hc
  calc rest.length < (c :: w ++ rest).length := by
        simp only [List.cons_append, List.length_cons, List.length_append]
        omega
    _ = (skipGaps s).length := by rw [hskip]
    _ ≤ s.length := (List.dropWhile_suffix isGap).length_le

theorem nextIs_of_begins_token {c : CodePoint} {w : Text} (hc : isGap c = false)
    (h : Begins (Grammar.token (c :: w)) s rest) : nextIs p s = p c :=
  nextIs_of_skipGaps ((begins_token ⟨c, rfl, hc⟩).mp h)

/-- The character does not belong between tokens. -/
theorem isToken_of_forall {w : Text} (hp : ∀ c, isGap c = true → p c = false) (hne : w ≠ [])
    (hw : ∀ c ∈ w, p c = true) : IsToken w := by
  obtain ⟨c, w, rfl⟩ := List.exists_cons_of_ne_nil hne
  refine ⟨c, rfl, Bool.eq_false_iff.mpr fun hgap => ?_⟩
  exact Bool.false_ne_true ((hp c hgap).symm.trans (hw c List.mem_cons_self))

/-- **A run of characters of one sort is read as a whole.** -/
theorem run_eq_ok {w : Text} (hp : ∀ c, isGap c = true → p c = false) :
    run p s = .ok (w, rest) ↔
      ((w ≠ [] ∧ ∀ c ∈ w, p c = true) ∧ Begins (Grammar.token w) s rest) ∧ StopsAt p rest := by
  constructor
  · intro h
    rw [run] at h
    split at h
    · exact nomatch h
    · rename_i token hne
      obtain ⟨rfl, rfl⟩ := Prod.mk.inj (Except.ok.inj h)
      have hw : ∀ c ∈ (skipGaps s).takeWhile p, p c = true := fun _ => List.mem_takeWhile_imp
      refine ⟨⟨⟨hne, hw⟩, ?_⟩, fun c hc => ?_⟩
      · exact (begins_token (isToken_of_forall hp hne hw)).mpr List.takeWhile_append_dropWhile.symm
      · have hhead := List.head?_dropWhile_not p (skipGaps s)
        rw [Option.mem_def.mp hc] at hhead
        simpa using hhead
  · rintro ⟨⟨⟨hne, hw⟩, hbegins⟩, hrest⟩
    have hskip := (begins_token (isToken_of_forall hp hne hw)).mp hbegins
    rw [run, hskip, takeWhile_append_stop hw hrest, dropWhile_append_stop hw hrest]
    obtain ⟨c, w, rfl⟩ := List.exists_cons_of_ne_nil hne
    rfl

/-! ### Numerals -/

theorem isDigit_of_isGap : ∀ c, isGap c = true → c.isDigit = false := by
  intro c hc
  obtain rfl | rfl := isGap_iff.mp hc <;> rfl

theorem begins_numeral {ds : Digits} :
    Begins (Grammar.numeral ds) s rest ↔ IsNumeral ds ∧ Begins (Grammar.token ds) s rest :=
  ⟨fun ⟨w, ⟨hds, hw⟩, hs⟩ => ⟨hds, w, hw, hs⟩, fun ⟨hds, w, hw, hs⟩ => ⟨w, ⟨hds, hw⟩, hs⟩⟩

/-- **A numeral is read as a whole.** -/
theorem numeral_eq_ok {ds : Digits} :
    numeral s = .ok (ds, rest) ↔
      Begins (Grammar.numeral ds) s rest ∧ StopsAt CodePoint.isDigit rest := by
  rw [numeral, run_eq_ok isDigit_of_isGap, begins_numeral, IsNumeral]

theorem nextIs_of_begins_numeral {ds : Digits} (h : Begins (Grammar.numeral ds) s rest) :
    nextIs CodePoint.isDigit s = true := by
  obtain ⟨hds, h⟩ := begins_numeral.mp h
  obtain ⟨c, w, rfl⟩ := List.exists_cons_of_ne_nil hds.1
  have hskip := (begins_token (isToken_of_forall isDigit_of_isGap hds.1 hds.2)).mp h
  exact (nextIs_of_skipGaps hskip).trans (hds.2 c List.mem_cons_self)

/-! ### Symbols -/

theorem isSymbolChar_iff {c : CodePoint} :
    isSymbolChar c = true ↔ Text.isBlank c = false ∧ c ∉ (['{', '}', ',', ':'] : Text) := by
  simp [isSymbolChar, and_assoc]

theorem isSymbolChar_of_isGap : ∀ c, isGap c = true → isSymbolChar c = false := by
  intro c hc
  obtain rfl | rfl := isGap_iff.mp hc <;> decide

theorem isSymbol_iff {a : Symbol} :
    IsSymbol a ↔ a ≠ [] ∧ ∀ c ∈ a, isSymbolChar c = true := by
  simp only [IsSymbol, isSymbolChar_iff]

theorem begins_symbol {a : Symbol} :
    Begins (Grammar.symbol a) s rest ↔ IsSymbol a ∧ Begins (Grammar.token a) s rest :=
  ⟨fun ⟨w, ⟨ha, hw⟩, hs⟩ => ⟨ha, w, hw, hs⟩, fun ⟨ha, w, hw, hs⟩ => ⟨w, ⟨ha, hw⟩, hs⟩⟩

/-- **A symbol is read as a whole.** -/
theorem symbol_eq_ok {a : Symbol} {n : Nat} :
    symbol s = .ok ((a, n), rest) ↔
      (Begins (Grammar.symbol a) s rest ∧ StopsAt isSymbolChar rest) ∧ (skipGaps s).length = n := by
  rw [symbol, bind_eq_ok, begins_symbol, isSymbol_iff, ← run_eq_ok isSymbolChar_of_isGap]
  constructor
  · rintro ⟨⟨w, rest'⟩, hw, h⟩
    obtain ⟨hsymbol, rfl⟩ := Prod.mk.inj (Except.ok.inj h)
    obtain ⟨rfl, hn⟩ := Prod.mk.inj hsymbol
    exact ⟨hw, hn⟩
  · rintro ⟨hw, rfl⟩
    exact ⟨_, hw, rfl⟩

/-! ## Line ends -/

theorem begins_lineEnd :
    Begins Grammar.lineEnd s rest ↔
      s = .char '\n' :: rest ∨ s = .char '\r' :: .char '\n' :: rest := by
  constructor
  · rintro ⟨w, rfl | rfl, rfl⟩
    · exact .inl rfl
    · exact .inr rfl
  · rintro (rfl | rfl)
    · exact ⟨_, .inl rfl, rfl⟩
    · exact ⟨_, .inr rfl, rfl⟩

theorem dropBreaks_of_begins (h : Begins Grammar.lineEnd s rest) :
    dropBreaks s = dropBreaks rest := by
  obtain rfl | rfl := begins_lineEnd.mp h <;> rfl

theorem atBreak_iff : atBreak s = true ↔ ∃ mid, Begins Grammar.lineEnd (skipGaps s) mid := by
  simp only [begins_lineEnd]
  unfold atBreak
  split
  · rename_i t h
    exact ⟨fun _ => ⟨t, .inl h⟩, fun _ => rfl⟩
  · rename_i t h
    exact ⟨fun _ => ⟨t, .inr h⟩, fun _ => rfl⟩
  · rename_i hn hrn
    refine ⟨fun h => absurd h Bool.false_ne_true, fun ⟨t, h⟩ => ?_⟩
    exact h.elim (fun h => absurd h (hn t)) fun h => absurd h (hrn t)

/-- What is dropped are line ends. -/
theorem begins_dropBreaks (s : Text) : Begins Grammar.lineEnd∗ s (dropBreaks s) := by
  have hstep : ∀ {s t : Text}, Begins Grammar.lineEnd s t →
      Begins Grammar.lineEnd∗ t (dropBreaks t) → Begins Grammar.lineEnd∗ s (dropBreaks t) := by
    intro s t hs ht
    rw [← Language.one_add_self_mul_kstar_eq_kstar, begins_add, begins_mul]
    exact .inr ⟨t, hs, ht⟩
  fun_induction dropBreaks s with
  | case1 s ih => exact hstep (begins_lineEnd.mpr (.inl rfl)) ih
  | case2 s ih => exact hstep (begins_lineEnd.mpr (.inr rfl)) ih
  | case3 s => exact ⟨[], Language.nil_mem_kstar _, rfl⟩

theorem dropBreaks_of_begins_kstar (h : Begins Grammar.lineEnd∗ s rest) :
    dropBreaks s = dropBreaks rest := by
  obtain ⟨w, hw, rfl⟩ := h
  obtain ⟨ws, rfl, hws⟩ := Language.mem_kstar.mp hw
  induction ws with
  | nil => rfl
  | cons w ws ih =>
    obtain ⟨hw, hws⟩ := List.forall_mem_cons.mp hws
    rw [List.flatten_cons, List.append_assoc, dropBreaks_of_begins ⟨w, hw, rfl⟩]
    exact ih hws (Language.join_mem_kstar hws)

theorem dropBreaks_dropBreaks (s : Text) : dropBreaks (dropBreaks s) = dropBreaks s :=
  (dropBreaks_of_begins_kstar (begins_dropBreaks s)).symm

theorem begins_lineEnds : Begins Grammar.lineEnds s rest ↔
    ∃ mid, Begins Grammar.lineEnd (skipGaps s) mid ∧ Begins Grammar.lineEnd∗ mid rest := by
  simp only [Grammar.lineEnds, begins_mul]
  constructor
  · rintro ⟨t, hgaps, mid, hend, hends⟩
    have hstop : StopsAt isGap t := by
      obtain rfl | rfl := begins_lineEnd.mp hend <;> rintro _ ⟨⟩ <;> rfl
    rw [skipGaps_eq_of_begins hgaps, skipGaps_eq_self hstop]
    exact ⟨mid, hend, hends⟩
  · rintro ⟨mid, hend, hends⟩
    exact ⟨skipGaps s, begins_gaps_skipGaps s, mid, hend, hends⟩

/-- **Line ends are read as a whole.** -/
theorem breaks_eq_ok :
    breaks s = .ok rest ↔ Begins Grammar.lineEnds s rest ∧ dropBreaks rest = rest := by
  rw [begins_lineEnds]
  unfold breaks
  split
  · rename_i hat
    obtain ⟨mid, hend⟩ := atBreak_iff.mp hat
    rw [Except.ok.injEq, dropBreaks_of_begins hend]
    constructor
    · rintro rfl
      exact ⟨⟨mid, hend, begins_dropBreaks mid⟩, dropBreaks_dropBreaks mid⟩
    · rintro ⟨⟨mid', hend', hends⟩, hrest⟩
      rw [← dropBreaks_of_begins hend, dropBreaks_of_begins hend',
        dropBreaks_of_begins_kstar hends, hrest]
  · rename_i hat
    exact ⟨nofun, fun ⟨⟨mid, hend, _⟩, _⟩ => absurd (atBreak_iff.mpr ⟨mid, hend⟩) hat⟩

theorem nextIs_of_begins_lineEnd (hn : p '\n' = false) (hr : p '\r' = false)
    (h : Begins Grammar.lineEnd (skipGaps s) rest) : nextIs p s = false := by
  obtain h | h := begins_lineEnd.mp h
  · exact (nextIs_of_skipGaps h).trans hn
  · exact (nextIs_of_skipGaps h).trans hr

/-- Where a line ends, nothing else follows. -/
theorem nextIs_of_begins_lineEnds (hn : p '\n' = false) (hr : p '\r' = false)
    (h : Begins Grammar.lineEnds s rest) : nextIs p s = false := by
  obtain ⟨mid, hend, _⟩ := begins_lineEnds.mp h
  exact nextIs_of_begins_lineEnd hn hr hend

/-- A character with which the end of a line can begin. -/
def isBreakChar (c : CodePoint) : Bool := c == '\n' || c == '\r'

theorem dropBreaks_eq_self (h : nextIs isBreakChar s = false) : dropBreaks s = s := by
  have hstop : StopsAt isBreakChar s := stopsAt_of_nextIs (fun c hc => by
    obtain rfl | rfl := isGap_iff.mp hc <;> rfl) h
  unfold dropBreaks
  split
  · exact absurd (hstop _ rfl) (by decide)
  · exact absurd (hstop _ rfl) (by decide)
  · rfl

theorem nextIs_of_atBreak (h : atBreak s = true) : nextIs isBreakChar s = true := by
  obtain ⟨mid, hend⟩ := atBreak_iff.mp h
  obtain h | h := begins_lineEnd.mp hend <;> exact nextIs_of_skipGaps h

/-- **Line ends are dropped where they may stand**, up to what is none. -/
theorem optionalBreaks_eq_iff (hrest : nextIs isBreakChar rest = false) :
    optionalBreaks s = rest ↔ Begins (1 + Grammar.lineEnds) s rest := by
  rw [begins_add, begins_one]
  unfold optionalBreaks
  split
  · rename_i hat
    have hne : s ≠ rest := fun he => Bool.false_ne_true <|
      hrest.symm.trans (he ▸ nextIs_of_atBreak hat)
    have hbreaks : breaks s = .ok rest ↔ dropBreaks (skipGaps s) = rest := by
      rw [breaks, if_pos hat, Except.ok.injEq]
    rw [← hbreaks, breaks_eq_ok, or_iff_right hne]
    exact and_iff_left (dropBreaks_eq_self hrest)
  · rename_i hat
    refine (or_iff_left fun h => hat (atBreak_iff.mpr ?_)).symm
    obtain ⟨mid, hend, _⟩ := begins_lineEnds.mp h
    exact ⟨mid, hend⟩

theorem begins_gaps_nil : Begins Grammar.gaps s [] ↔ skipGaps s = [] :=
  ⟨fun h => skipGaps_eq_of_begins h, fun h => h ▸ begins_gaps_skipGaps s⟩

/-- **A text ends with line ends and gaps** if nothing but those is left. -/
theorem skipGaps_optionalBreaks_eq_nil :
    skipGaps (optionalBreaks s) = [] ↔ Begins ((1 + Grammar.lineEnds) * Grammar.gaps) s [] := by
  simp only [begins_mul, begins_gaps_nil]
  constructor
  · exact fun h => ⟨_, (optionalBreaks_eq_iff (nextIs_of_skipGaps_nil h)).mp rfl, h⟩
  · rintro ⟨mid, hends, h⟩
    rwa [(optionalBreaks_eq_iff (nextIs_of_skipGaps_nil h)).mpr hends]

/-- At the end of a text nothing follows but line ends. -/
theorem nextIs_of_begins_end (hn : p '\n' = false) (hr : p '\r' = false)
    (h : Begins ((1 + Grammar.lineEnds) * Grammar.gaps) s []) : nextIs p s = false := by
  obtain ⟨mid, h, hgaps⟩ := begins_mul.mp h
  obtain rfl | h := begins_add.mp h |>.imp_left begins_one.mp
  · exact nextIs_of_skipGaps_nil (begins_gaps_nil.mp hgaps)
  · exact nextIs_of_begins_lineEnds hn hr h

end FiniteAutomata.Layout
