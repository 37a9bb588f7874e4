import FiniteAutomata.Json5.Basic
import FiniteAutomata.Json5.Writing
import FiniteAutomata.Proofs.Text.Numeral
import Mathlib.Data.List.Chain

/-!
# Proofs/Json5/Scalar — texts and integers that were written are read again

A text is read code point by code point: each is written as itself, as a letter after a backslash or
by its code units, and each way is read as its code units. Joined again these are the code points
that were written, but two halves of a surrogate pair that stood side by side come back as one
character (`quotedText_writtenText`). So a text comes back exactly if no two halves of a pair meet
in it (`Text.rejoined_eq_self_iff`). An integer comes back digit by digit up to a sign that stands
after a value (`number_writtenInteger`).
-/

namespace FiniteAutomata

/-! ## Surrogates -/

namespace CodePoint

/-- The code point is the first half of a surrogate pair. -/
def IsHigh (c : CodePoint) : Prop := 0xD800 ≤ c.toNat ∧ c.toNat < 0xDC00

/-- The code point is the second half of a surrogate pair. -/
def IsLow (c : CodePoint) : Prop := 0xDC00 ≤ c.toNat ∧ c.toNat < 0xE000

theorem toNat_lt (c : CodePoint) : c.toNat < 0x110000 := by
  cases c with
  | char c =>
    have hvalid : c.toNat < 0xD800 ∨ 0xDFFF < c.toNat ∧ c.toNat < 0x110000 := c.valid
    change c.toNat < 0x110000
    omega
  | surrogate k =>
    have hk := k.isLt
    change 0xD800 + k.val < 0x110000
    omega

/-- The number that a code point was made from is its number, as far as surrogates go. -/
theorem toNat_ofNat_of_isSurrogate {n : Nat} (h : IsSurrogate n ∨ IsSurrogate (ofNat n).toNat) :
    (ofNat n).toNat = n := by
  by_cases hn : IsSurrogate n
  · rw [ofNat, dif_pos hn]
    exact Nat.add_sub_cancel' hn.1
  · rw [ofNat, dif_neg hn] at h
    exact absurd (h.resolve_left hn) (not_isSurrogate_toNat _)

theorem isHigh_ofNat {n : Nat} : (ofNat n).IsHigh ↔ 0xD800 ≤ n ∧ n < 0xDC00 := by
  constructor
  · intro h
    rwa [IsHigh, toNat_ofNat_of_isSurrogate (.inr ⟨h.1, h.2.trans (by decide)⟩)] at h
  · intro h
    rwa [IsHigh, toNat_ofNat_of_isSurrogate (.inl ⟨h.1, h.2.trans (by decide)⟩)]

theorem isLow_ofNat {n : Nat} : (ofNat n).IsLow ↔ 0xDC00 ≤ n ∧ n < 0xE000 := by
  constructor
  · intro h
    rwa [IsLow, toNat_ofNat_of_isSurrogate (.inr ⟨le_trans (by decide) h.1, h.2⟩)] at h
  · intro h
    rwa [IsLow, toNat_ofNat_of_isSurrogate (.inl ⟨le_trans (by decide) h.1, h.2⟩)]

end CodePoint

namespace Text

/-- **Nowhere in the text does a first half of a surrogate pair stand right before a second.** -/
def Unpaired (s : Text) : Prop := s.IsChain fun c d => ¬ (c.IsHigh ∧ d.IsLow)

/-- The text that is read once this one was written: halves of a pair that meet are one character.
-/
def rejoined (s : Text) : Text := Json5.joinUnits (s.flatMap Json5.codeUnits)

/-- No two characters are halves of a pair. -/
theorem unpaired_ofString (x : String) : Unpaired x := by
  refine List.isChain_iff_forall_rel_of_append_cons_cons.mpr fun c _ s t heq h => ?_
  obtain ⟨c', -, rfl⟩ := List.mem_map.mp (heq ▸ List.mem_append_right s List.mem_cons_self)
  exact CodePoint.not_isSurrogate_toNat c' ⟨h.1.1, h.1.2.trans (by decide)⟩

end Text

namespace Json5

variable {s t rest : Text}

/-! ## Code units -/

theorem hexDigit?_digitChar : ∀ d < 16, Text.hexDigit? (Nat.digitChar d) = some d := by decide

theorem hexNumber_hexDigits {n : Nat} (h : n < 0x10000) :
    hexNumber 4 0 (Text.hexDigits 4 n ++ s) = some (n, s) := by
  have hdigit : ∀ m : Nat, Text.hexDigit? (Nat.digitChar (m % 16)) = some (m % 16) := fun m =>
    hexDigit?_digitChar _ (Nat.mod_lt _ (by decide))
  simp only [Text.hexDigits, List.nil_append, List.cons_append, hexNumber, hdigit]
  congr 2
  omega

/-- A unit that is not the first of a pair stands for itself. -/
theorem joinUnits_cons {n : Nat} {units : List Nat}
    (h : 0xD800 ≤ n → n < 0xDC00 → ∀ m ∈ units.head?, ¬ (0xDC00 ≤ m ∧ m < 0xE000)) :
    joinUnits (n :: units) = .ofNat n :: joinUnits units := by
  cases units with
  | nil => rfl
  | cons m units =>
    rw [joinUnits, if_neg fun hpair => h hpair.1 hpair.2.1 m rfl hpair.2.2]

theorem joinUnits_codeUnits_append {c : CodePoint} {units : List Nat}
    (h : c.IsHigh → ∀ m ∈ units.head?, ¬ (0xDC00 ≤ m ∧ m < 0xE000)) :
    joinUnits (codeUnits c ++ units) = c :: joinUnits units := by
  have hbound := c.toNat_lt
  unfold codeUnits
  split
  · rw [List.singleton_append, joinUnits_cons fun hlow hhigh => h ⟨hlow, hhigh⟩,
      CodePoint.ofNat_toNat]
  · change joinUnits (_ :: _ :: units) = _
    rw [joinUnits, if_pos (by omega)]
    have hn : 0x10000 + (0xD800 + (c.toNat - 0x10000) / 0x400 - 0xD800) * 0x400
        + (0xDC00 + (c.toNat - 0x10000) % 0x400 - 0xDC00) = c.toNat := by omega
    rw [hn, CodePoint.ofNat_toNat]

/-- What code points begin with is low only if the first of them is. -/
theorem isLow_of_head?_flatMap {m : Nat} (hm : m ∈ (s.flatMap codeUnits).head?)
    (hlow : 0xDC00 ≤ m ∧ m < 0xE000) : ∃ c ∈ s.head?, c.IsLow := by
  cases s with
  | nil => exact nomatch hm
  | cons c s =>
    have hbound := c.toNat_lt
    refine ⟨c, rfl, ?_⟩
    rw [List.flatMap_cons, codeUnits] at hm
    split at hm
    · obtain rfl := Option.some.inj hm
      exact hlow
    · obtain rfl := Option.some.inj hm
      omega

/-- What units are joined to begins with a low code point only if the first unit is one. -/
theorem isLow_of_head?_joinUnits {n : Nat} {units : List Nat} {c : CodePoint}
    (hc : c ∈ (joinUnits (n :: units)).head?) (hlow : c.IsLow) : 0xDC00 ≤ n ∧ n < 0xE000 := by
  cases units with
  | nil =>
    obtain rfl := Option.some.inj hc
    exact CodePoint.isLow_ofNat.mp hlow
  | cons m units =>
    rw [joinUnits] at hc
    split at hc
    · obtain rfl := Option.some.inj hc
      have hlow := CodePoint.isLow_ofNat.mp hlow
      omega
    · obtain rfl := Option.some.inj hc
      exact CodePoint.isLow_ofNat.mp hlow

/-- Halves of a pair are joined wherever they meet. -/
theorem unpaired_joinUnits (units : List Nat) : (joinUnits units).Unpaired := by
  fun_induction joinUnits units with
  | case1 => exact List.isChain_nil
  | case2 n => exact List.isChain_singleton _
  | case3 n m rest hpair ih =>
    refine List.isChain_cons.mpr ⟨fun d _ h => ?_, ih⟩
    have hhigh := CodePoint.isHigh_ofNat.mp h.1
    omega
  | case4 n m rest hpair ih =>
    refine List.isChain_cons.mpr ⟨fun d hd h => hpair ?_, ih⟩
    have hhigh := CodePoint.isHigh_ofNat.mp h.1
    exact ⟨hhigh.1, hhigh.2, isLow_of_head?_joinUnits hd h.2⟩

end Json5

/-- **A text is the one that is read exactly if no halves of a pair meet in it.** -/
theorem Text.rejoined_eq_self_iff {s : Text} : s.rejoined = s ↔ s.Unpaired := by
  refine ⟨fun h => h ▸ Json5.unpaired_joinUnits _, fun h => ?_⟩
  induction s with
  | nil => rfl
  | cons c s ih =>
    obtain ⟨hhead, htail⟩ := List.isChain_cons.mp h
    rw [rejoined, List.flatMap_cons, Json5.joinUnits_codeUnits_append fun hc m hm hlow => ?_]
    · exact congrArg _ (ih htail)
    · obtain ⟨d, hd, hdlow⟩ := Json5.isLow_of_head?_flatMap hm hlow
      exact hhead d hd ⟨hc, hdlow⟩

/-- Characters come back as they are. -/
@[simp] theorem Text.rejoined_ofString (x : String) : rejoined x = x :=
  rejoined_eq_self_iff.mpr (unpaired_ofString x)

namespace Json5

variable {s t rest : Text}

/-! ## Texts -/

/-- From `s` on the text goes on with these code units up to its closing quote, after which `rest`
is left. At least `n` steps have to be allowed. -/
def Quoted (n : Nat) (s : Text) (units : List Nat) (rest : Text) : Prop :=
  ∀ k, n ≤ k → quotedWithin '"' k s = some (units, rest)

namespace Quoted

variable {m n : Nat} {units more : List Nat}

theorem mono (h : Quoted n s units rest) (hmn : n ≤ m) : Quoted m s units rest :=
  fun k hk => h k (hmn.trans hk)

theorem close : Quoted 1 ('"' :: rest) [] rest := by
  rintro (_ | k) hk
  · exact absurd hk (by decide)
  · rfl

theorem plain {c : CodePoint} (hc : c ≠ '"' ∧ c ≠ '\\' ∧ c ≠ '\n' ∧ c ≠ '\r')
    (h : Quoted n s units rest) : Quoted (n + 1) (c :: s) (c.toNat :: units) rest := by
  rintro (_ | k) hk
  · exact absurd hk (by omega)
  · simp [quotedWithin, hc, h k (by omega)]

theorem escape (hs : Json5.escape t = some (more, s)) (h : Quoted n s units rest) :
    Quoted (n + 1) ('\\' :: t) (more ++ units) rest := by
  rintro (_ | k) hk
  · exact absurd hk (by omega)
  · simp [quotedWithin, hs, h k (by omega)]

theorem writtenUnit {u : Nat} (hu : u < 0x10000) (h : Quoted n s units rest) :
    Quoted (n + 1) (writtenUnit u ++ s) (u :: units) rest := by
  have hunit : Json5.escape (.char 'u' :: Text.hexDigits 4 u ++ s) = some ([u], s) := by
    change (hexNumber 4 0 (Text.hexDigits 4 u ++ s)).map _ = _
    rw [hexNumber_hexDigits hu]
    rfl
  exact escape hunit h

/-- A character that stands after a backslash. -/
theorem letter {c e : CodePoint} (hs : Json5.escape (e :: s) = some ([c.toNat], s))
    (hc : c.toNat < 0x10000) (h : Quoted n s units rest) :
    Quoted (n + 2) ('\\' :: e :: s) (codeUnits c ++ units) rest := by
  rw [codeUnits, if_pos hc]
  exact (h.escape hs).mono (by omega)

/-- A character that is written by its code units. -/
theorem writtenOut (c : CodePoint) (h : Quoted n s units rest) :
    Quoted (n + ((codeUnits c).flatMap Json5.writtenUnit).length)
      ((codeUnits c).flatMap Json5.writtenUnit ++ s) (codeUnits c ++ units) rest := by
  have hbound := c.toNat_lt
  unfold codeUnits
  split
  · exact (h.writtenUnit (by omega)).mono (Nat.add_le_add_left (by simp [Json5.writtenUnit]) n)
  · have hlow : Quoted (n + 1) _ _ rest :=
      h.writtenUnit (u := 0xDC00 + (c.toNat - 0x10000) % 0x400) (by omega)
    have hhigh := hlow.writtenUnit (u := 0xD800 + (c.toNat - 0x10000) / 0x400) (by omega)
    have hlength : ∀ u v : Nat, 2 ≤ ([u, v].flatMap Json5.writtenUnit).length := fun u v => by
      simp [Json5.writtenUnit, Text.hexDigits]
    simpa using hhigh.mono (Nat.add_le_add_left (hlength _ _) n)

/-- **A character that was written comes back as its code units.** -/
theorem writtenChar (c : CodePoint) (h : Quoted n s units rest) :
    Quoted (n + (Json5.writtenChar c).length) (Json5.writtenChar c ++ s) (codeUnits c ++ units)
      rest := by
  unfold Json5.writtenChar
  split_ifs with hquote hn hr ht hb hf hplain
  · obtain rfl | rfl := hquote <;> exact h.letter rfl (by decide)
  · subst hn; exact h.letter rfl (by decide)
  · subst hr; exact h.letter rfl (by decide)
  · subst ht; exact h.letter rfl (by decide)
  · subst hb; exact h.letter rfl (by decide)
  · subst hf; exact h.letter rfl (by decide)
  · have hlt : c.toNat < 0x10000 :=
      Nat.lt_of_le_of_lt (show c.toNat ≤ _ from hplain.2) (by decide)
    rw [codeUnits, if_pos hlt]
    exact h.plain ⟨fun he => hquote (.inl he), fun he => hquote (.inr he), hn, hr⟩
  · exact h.writtenOut c

end Quoted

/-- **A text that was written comes back** with the halves of pairs joined. -/
theorem quotedText_writtenText (x rest : Text) :
    quotedText '"' (x.flatMap writtenChar ++ .char '"' :: rest) = some (x.rejoined, rest) := by
  have hquoted : ∀ s : Text, Quoted ((s.flatMap writtenChar).length + 1)
      (s.flatMap writtenChar ++ .char '"' :: rest) (s.flatMap codeUnits) rest := by
    intro s
    induction s with
    | nil => exact .close
    | cons c s ih =>
      simp only [List.flatMap_cons, List.append_assoc]
      exact (ih.writtenChar c).mono (by simp only [List.length_append]; omega)
  rw [quotedText, hquoted x _ (by simp)]
  rfl

/-! ## Integers -/

/-- The text ends here, or goes on with a sign that stands after a value. -/
def Stops (rest : Text) : Prop := ∀ c ∈ rest.head?, c = ',' ∨ c = ']' ∨ c = '}'

theorem Stops.stopsAt (h : Stops rest) {p : CodePoint → Bool}
    (hp : p ',' = false ∧ p ']' = false ∧ p '}' = false) : Text.StopsAt p rest := by
  intro c hc
  obtain rfl | rfl | rfl := h c hc
  · exact hp.1
  · exact hp.2.1
  · exact hp.2.2

theorem fraction_of_stops (h : Stops rest) : fraction rest = (none, rest) := by
  cases rest with
  | nil => rfl
  | cons c rest => obtain rfl | rfl | rfl := h c rfl <;> rfl

theorem exponent_of_stops (h : Stops rest) : exponent rest = (none, rest) := by
  cases rest with
  | nil => rfl
  | cons c rest => obtain rfl | rfl | rfl := h c rfl <;> rfl

/-- **The digits of a number that is not too long are read as the number.** -/
theorem decimalNumber_spell (negative : Bool) {n : Nat} (hn : n < Nat.pow 10 Text.numeralLimit)
    (h : Stops rest) : decimalNumber negative (Text.spell n ++ rest) =
      some (.leaf (.int (if negative then -(n : Int) else n)), rest) := by
  have hstop := h.stopsAt (p := CodePoint.isDigit) (by decide)
  have hdigits := Text.isDigit_of_mem_spell (n := n)
  have hlength : ¬ Text.numeralLimit < (Text.spell n).length := by
    exact Nat.not_lt.mpr ((Text.length_spell_le_iff (by decide)).mpr hn)
  have hhead : ¬ ((Text.spell n).head? = some (.char '0') ∧ 1 < (Text.spell n).length) := by
    rintro ⟨hzero, hlong⟩
    rw [Text.eq_zero_of_head?_spell hzero] at hlong
    exact absurd hlong (by decide)
  unfold decimalNumber
  simp only [Text.takeWhile_append_stop hdigits hstop, Text.dropWhile_append_stop hdigits hstop,
    fraction_of_stops h, exponent_of_stops h]
  rw [if_neg (by simpa [Text.spell_ne_nil] using hhead)]
  simp only [Decimal.toDocument, Decimal.isInteger, Option.isNone_none, Bool.and_self, if_true,
    if_neg hlength, Decimal.natural, Text.ofDigits_spell]

/-- What begins with a digit is none of the words for numbers. -/
theorem specialNumber_of_isDigit {negative : Bool} {c : CodePoint} (hc : c.isDigit = true) :
    specialNumber negative (c :: s) = none := by
  have hI : .char 'I' ≠ c := by
    rintro rfl
    exact absurd hc (by decide)
  have hN : .char 'N' ≠ c := by
    rintro rfl
    exact absurd hc (by decide)
  have hinfinity : dropWord? ("Infinity" : Text) (c :: s) = none := if_neg hI
  have hnan : dropWord? ("NaN" : Text) (c :: s) = none := if_neg hN
  simp [specialNumber, specialNumbers, hinfinity, hnan]

theorem unsignedNumber_spell (negative : Bool) {n : Nat} (hn : n < Nat.pow 10 Text.numeralLimit)
    (h : Stops rest) : unsignedNumber negative (Text.spell n ++ rest) =
      some (.leaf (.int (if negative then -(n : Int) else n)), rest) := by
  obtain ⟨c, ds, hds⟩ := List.exists_cons_of_ne_nil (Text.spell_ne_nil n)
  have hc : c.isDigit = true := Text.isDigit_of_mem_spell c (hds ▸ List.mem_cons_self)
  -- a zero that is followed by something other than a sign is followed by a digit
  have hnext : ∀ (x : CodePoint) s, Text.spell n ++ rest = .char '0' :: x :: s →
      x.isDigit = true ∨ x = ',' ∨ x = ']' ∨ x = '}' := by
    intro x s heq
    rw [hds, List.cons_append] at heq
    have htail : ds ++ rest = x :: s := (List.cons.inj heq).2
    cases ds with
    | nil =>
      rw [List.nil_append] at htail
      exact .inr (h x (htail ▸ rfl))
    | cons d ds =>
      obtain rfl : d = x := (List.cons.inj htail).1
      have hmem : d ∈ Text.spell n := by simp [hds]
      exact .inl (Text.isDigit_of_mem_spell d hmem)
  unfold unsignedNumber
  split
  · rename_i s heq
    exact absurd (hnext _ _ heq) (by decide)
  · rename_i s heq
    exact absurd (hnext _ _ heq) (by decide)
  · have hspecial : specialNumber negative (Text.spell n ++ rest) = none := by
      rw [hds]
      exact specialNumber_of_isDigit hc
    rw [hspecial, Option.orElse_eq_orElse, Option.orElse_none, decimalNumber_spell negative hn h]

/-- **An integer that is not too long comes back.** -/
theorem number_writtenInteger {n : Int} (hn : isLongInteger n = false) (h : Stops rest) :
    number (writtenInteger n ++ rest) = some (.leaf (.int n), rest) := by
  have hlt : n.natAbs < Nat.pow 10 Text.numeralLimit :=
    Nat.lt_of_not_le (of_decide_eq_false hn)
  unfold writtenInteger
  split
  · refine (unsignedNumber_spell true hlt h).trans ?_
    rw [if_pos rfl, Int.ofNat_natAbs_of_nonpos (by omega), Int.neg_neg]
  · obtain ⟨c, ds, hds⟩ :=
      List.exists_cons_of_ne_nil (Text.spell_ne_nil n.natAbs)
    have hc : c.isDigit = true := Text.isDigit_of_mem_spell c (hds ▸ List.mem_cons_self)
    have hsign : number (Text.spell n.natAbs ++ rest) =
        unsignedNumber false (Text.spell n.natAbs ++ rest) := by
      rw [hds, List.cons_append]
      unfold number
      split
      · rename_i heq
        exact absurd ((List.cons.inj heq).1 ▸ hc) (by decide)
      · rename_i heq
        exact absurd ((List.cons.inj heq).1 ▸ hc) (by decide)
      · rfl
    rw [hsign, unsignedNumber_spell false hlt h, if_neg Bool.false_ne_true,
      Int.natAbs_of_nonneg (by omega)]

/-- An integer begins with a minus sign or a digit. -/
def integerStarts : Text := "-0123456789"

theorem exists_writtenInteger (n : Int) :
    ∃ c t, writtenInteger n = c :: t ∧ c ∈ integerStarts := by
  unfold writtenInteger
  split
  · exact ⟨'-', _, rfl, List.mem_cons_self⟩
  · obtain ⟨c, ds, hds⟩ :=
      List.exists_cons_of_ne_nil (Text.spell_ne_nil n.natAbs)
    have hc := Text.isDigit_of_mem_spell c (hds ▸ List.mem_cons_self)
    exact ⟨c, ds, hds, List.mem_cons_of_mem _ (Text.mem_digits_of_isDigit hc)⟩

end Json5

end FiniteAutomata
