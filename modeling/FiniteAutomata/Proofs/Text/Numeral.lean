import FiniteAutomata.Text.CodePoint
import Mathlib.Data.List.TakeWhile

/-!
# Proofs/Text/Numeral — runs of characters, and the number that digits stand for

A run of characters of one sort is taken off a text as a whole if the text does not go on with one
(`takeWhile_append_stop`, `dropWhile_append_stop`), so the run and what follows it are told apart
(`append_inj_of_stops`). The value of a run of digits is that of its digits by place
(`ofDigits_basicDigits`), and their number bounds it (`ofDigits_lt`). The digits of a number stand
for it again (`ofDigits_spell`), and they begin with a zero only if the number is zero
(`eq_zero_of_head?_spell`).
-/

namespace FiniteAutomata.Text

/-! ## Runs -/

/-- The text does not begin with a character of this sort. -/
def StopsAt (p : CodePoint → Bool) (s : Text) : Prop := ∀ c ∈ s.head?, p c = false

section

variable {p : CodePoint → Bool} {run s : Text}

theorem takeWhile_append_stop (hrun : ∀ c ∈ run, p c = true) (hs : StopsAt p s) :
    (run ++ s).takeWhile p = run := by
  rw [List.takeWhile_append_of_pos hrun]
  cases s with
  | nil => simp
  | cons c s => simp [hs c rfl]

theorem dropWhile_append_stop (hrun : ∀ c ∈ run, p c = true) (hs : StopsAt p s) :
    (run ++ s).dropWhile p = s := by
  rw [List.dropWhile_append_of_pos hrun]
  cases s with
  | nil => rfl
  | cons c s => simp [hs c rfl]

/-- **Two runs with what follows each are told apart.** -/
theorem append_inj_of_stops {run' s' : Text} (hrun : ∀ c ∈ run, p c = true)
    (hrun' : ∀ c ∈ run', p c = true) (hs : StopsAt p s) (hs' : StopsAt p s')
    (h : run ++ s = run' ++ s') : run = run' ∧ s = s' := by
  constructor
  · rw [← takeWhile_append_stop hrun hs, h, takeWhile_append_stop hrun' hs']
  · rw [← dropWhile_append_stop hrun hs, h, dropWhile_append_stop hrun' hs']

end

/-- Two texts before a sign that is in neither, with what follows each, are told apart. -/
theorem append_cons_inj {sep : CodePoint} {s t r r' : Text} (hs : sep ∉ s) (ht : sep ∉ t)
    (h : s ++ sep :: r = t ++ sep :: r') : s = t ∧ r = r' := by
  have hother : ∀ {u : Text}, sep ∉ u → ∀ c ∈ u, (c != sep) = true := fun hu c hc =>
    bne_iff_ne.mpr fun he => hu (he ▸ hc)
  have hstops : ∀ u, StopsAt (· != sep) (sep :: u) := fun _ _ hc =>
    Option.some.inj hc ▸ bne_self_eq_false sep
  obtain ⟨hst, hr⟩ := append_inj_of_stops (hother hs) (hother ht) (hstops r) (hstops r') h
  exact ⟨hst, (List.cons.inj hr).2⟩

/-! ## Digits -/

/-- Digits are characters. -/
theorem exists_chars {ds : Text} (h : ∀ c ∈ ds, c.isDigit = true) :
    ∃ cs : List Char, ds = cs.map .char ∧ ∀ c ∈ cs, c.isDigit = true := by
  induction ds with
  | nil => exact ⟨[], rfl, List.forall_mem_nil _⟩
  | cons c ds ih =>
    obtain ⟨hc, hds⟩ := List.forall_mem_cons.mp h
    obtain ⟨cs, rfl, hcs⟩ := ih hds
    cases c with
    | char c => exact ⟨c :: cs, rfl, List.forall_mem_cons.mpr ⟨hc, hcs⟩⟩
    | surrogate k => nomatch hc

/-- The decimal digits are ten. -/
theorem mem_digits_of_isDigit {c : CodePoint} (h : c.isDigit = true) :
    c ∈ ("0123456789" : Text) := by
  cases c with
  | surrogate k => nomatch h
  | char c =>
    obtain ⟨hlow, hhigh⟩ := Bool.and_eq_true _ _ |>.mp h
    have hlow : 48 ≤ c.toNat := Char.le_def.mp (of_decide_eq_true hlow)
    have hhigh : c.toNat ≤ 57 := Char.le_def.mp (of_decide_eq_true hhigh)
    have hall : ∀ n ≤ 57, 48 ≤ n → Char.ofNat n ∈ "0123456789".toList := by decide
    exact List.mem_map_of_mem (Char.ofNat_toNat c ▸ hall c.toNat hhigh hlow)

theorem basicDigit?_of_isDigit {c : Char} (h : c.isDigit = true) :
    basicDigit? c = some (c.toNat - '0'.toNat) := by
  obtain ⟨hlow, hhigh⟩ := Bool.and_eq_true _ _ |>.mp h
  exact if_pos ⟨Char.le_def.mp (of_decide_eq_true hlow), Char.le_def.mp (of_decide_eq_true hhigh)⟩

/-- **Digits are read by place.** -/
theorem ofDigits_basicDigits {cs : List Char} (h : ∀ c ∈ cs, c.isDigit = true) :
    ofDigits 10 ((cs.map CodePoint.char).filterMap basicDigit?) = Nat.ofDigitChars 10 cs 0 := by
  suffices hfold : ∀ n : Nat, ((cs.map CodePoint.char).filterMap basicDigit?).foldl
      (fun n d => 10 * n + d) n = Nat.ofDigitChars 10 cs n from hfold 0
  induction cs with
  | nil => exact fun _ => Nat.ofDigitChars_nil.symm
  | cons c cs ih =>
    obtain ⟨hc, hcs⟩ := List.forall_mem_cons.mp h
    intro n
    rw [List.map_cons, List.filterMap_cons_some (basicDigit?_of_isDigit hc), List.foldl_cons,
      ih hcs, Nat.ofDigitChars_cons]

theorem ofDigitChars_lt {cs : List Char} (h : ∀ c ∈ cs, c.isDigit = true) (n : Nat) :
    Nat.ofDigitChars 10 cs n < (n + 1) * Nat.pow 10 cs.length := by
  induction cs generalizing n with
  | nil => simp
  | cons c cs ih =>
    obtain ⟨hc, hcs⟩ := List.forall_mem_cons.mp h
    have hdigit : c.toNat ≤ '9'.toNat :=
      Char.le_def.mp (of_decide_eq_true (Bool.and_eq_true _ _ |>.mp hc).2)
    have hstep : 10 * n + (c.toNat - '0'.toNat) + 1 ≤ (n + 1) * 10 := by
      simp only [Char.reduceToNat] at *
      omega
    calc Nat.ofDigitChars 10 (c :: cs) n
        = Nat.ofDigitChars 10 cs (10 * n + (c.toNat - '0'.toNat)) := Nat.ofDigitChars_cons
      _ < (10 * n + (c.toNat - '0'.toNat) + 1) * Nat.pow 10 cs.length := ih hcs _
      _ ≤ (n + 1) * 10 * Nat.pow 10 cs.length := Nat.mul_le_mul_right _ hstep
      _ = (n + 1) * (Nat.pow 10 cs.length * 10) := by
        rw [Nat.mul_assoc, Nat.mul_comm 10]

/-- **A number is less than the power of ten with as many zeros as it has digits.** -/
theorem ofDigits_lt {ds : Text} (h : ∀ c ∈ ds, c.isDigit = true) :
    ofDigits 10 (ds.filterMap basicDigit?) < Nat.pow 10 ds.length := by
  obtain ⟨cs, rfl, hcs⟩ := exists_chars h
  rw [ofDigits_basicDigits hcs, List.length_map]
  simpa using ofDigitChars_lt hcs 0

/-! ## Numbers as texts -/

theorem spell_nat (n : Nat) : spell n = (Nat.toDigits 10 n).map .char := by
  rw [spell, ofString, Nat.toString_eq_repr, Nat.toList_repr]

theorem spell_ne_nil (n : Nat) : spell n ≠ [] := by
  rw [spell_nat]
  exact mt List.map_eq_nil_iff.mp Nat.toDigits_ne_nil

theorem isDigit_of_mem_spell {n : Nat} : ∀ c ∈ spell n, c.isDigit = true := by
  rw [spell_nat]
  exact List.forall_mem_map.mpr fun _ hc => Nat.isDigit_of_mem_toDigits (by decide) (by decide) hc

/-- The text of a number has digits only. -/
theorem notMem_spell {c : CodePoint} (hc : c.isDigit = false) (n : Nat) : c ∉ spell n :=
  fun hmem => absurd (isDigit_of_mem_spell c hmem) (by rw [hc]; decide)

/-- **The digits of a number stand for it.** -/
theorem ofDigits_spell (n : Nat) : ofDigits 10 ((spell n).filterMap basicDigit?) = n := by
  rw [spell_nat, ofDigits_basicDigits fun _ hc =>
    Nat.isDigit_of_mem_toDigits (by decide) (by decide) hc,
    Nat.ofDigitChars_toDigits (by decide) (by decide)]

theorem spell_injective : Function.Injective (spell : Nat → Text) := fun m n h => by
  rw [← ofDigits_spell m, h, ofDigits_spell]

/-- A number less than a power of ten has no more digits than that has zeros. -/
theorem length_spell_le_iff {n k : Nat} (hk : 0 < k) :
    (spell n).length ≤ k ↔ n < Nat.pow 10 k := by
  rw [spell_nat, List.length_map, Nat.length_toDigits_le_iff (by decide) hk, Nat.pow_eq]

/-- **No zero stands before the digits of a number.** -/
theorem eq_zero_of_head?_spell {n : Nat} (h : (spell n).head? = some (.char '0')) : n = 0 := by
  rw [spell_nat, List.head?_map, Option.map_eq_some_iff] at h
  obtain ⟨c, hhead, hc⟩ := h
  obtain rfl := CodePoint.char.inj hc
  clear hc
  induction n using Nat.strongRecOn with
  | ind n ih =>
    by_cases hn : n < 10
    · rw [Nat.toDigits_of_lt_base hn] at hhead
      exact Nat.digitChar_eq_zero.mp (Option.some.inj hhead)
    · rw [Nat.toDigits_of_base_le (by decide) (Nat.le_of_not_lt hn),
        List.head?_append, List.head?_eq_some_head Nat.toDigits_ne_nil, Option.some_or,
        ← List.head?_eq_some_head] at hhead
      have hzero := ih (n / 10) (by omega) hhead
      omega

end FiniteAutomata.Text
