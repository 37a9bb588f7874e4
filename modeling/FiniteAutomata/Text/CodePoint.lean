/-!
# Text/CodePoint — texts, and the sorts of code points in them

A text is a list of code points. A code point is that of a Unicode character or one half of a
surrogate pair that stands alone: no character is meant by that, but texts may hold it, and it is
told from every other by its number (`CodePoint.toNat_inj`). What sort of character a code point is,
is looked up in closed ranges in ascending order, and stopping early in them loses nothing
(`Text.inRanges_iff`).
-/

namespace FiniteAutomata

/-! ## Code points -/

/-- **A code point**: a character, or half of a surrogate pair, by its place among those. -/
inductive CodePoint where
  | char (c : Char)
  | surrogate (k : Fin 0x800)
deriving DecidableEq, Repr

namespace CodePoint

instance : Coe Char CodePoint := ⟨char⟩

/-- The number of a code point. -/
def toNat : CodePoint → Nat
  | char c => c.toNat
  | surrogate k => 0xD800 + k

/-- The number is that of half a surrogate pair. -/
def IsSurrogate (n : Nat) : Prop := 0xD800 ≤ n ∧ n < 0xE000

instance (n : Nat) : Decidable (IsSurrogate n) :=
  inferInstanceAs (Decidable (0xD800 ≤ n ∧ n < 0xE000))

/-- The code point with a number. -/
def ofNat (n : Nat) : CodePoint :=
  if h : IsSurrogate n then surrogate ⟨n - 0xD800, by have := h.1; have := h.2; omega⟩
  else char (Char.ofNat n)

instance : LE CodePoint := ⟨fun c d => c.toNat ≤ d.toNat⟩

instance : LT CodePoint := ⟨fun c d => c.toNat < d.toNat⟩

instance (c d : CodePoint) : Decidable (c ≤ d) := inferInstanceAs (Decidable (c.toNat ≤ d.toNat))

instance (c d : CodePoint) : Decidable (c < d) := inferInstanceAs (Decidable (c.toNat < d.toNat))

/-- No character is half of a surrogate pair. -/
theorem not_isSurrogate_toNat (c : Char) : ¬ IsSurrogate c.toNat := by
  intro h
  have hvalid : c.toNat < 0xD800 ∨ 0xDFFF < c.toNat ∧ c.toNat < 0x110000 := c.valid
  have hlow := h.1
  have hhigh := h.2
  omega

theorem ofNat_toNat (c : CodePoint) : ofNat c.toNat = c := by
  cases c with
  | char c => rw [ofNat, toNat, dif_neg (not_isSurrogate_toNat c), Char.ofNat_toNat]
  | surrogate k =>
    have hk : IsSurrogate (0xD800 + k.val) :=
      ⟨Nat.le_add_right _ _, Nat.add_lt_add_left k.isLt 0xD800⟩
    rw [ofNat, toNat, dif_pos hk]
    exact congrArg surrogate (Fin.ext (Nat.add_sub_cancel_left ..))

/-- **Code points are told apart by their numbers.** -/
theorem toNat_inj {c d : CodePoint} : c.toNat = d.toNat ↔ c = d :=
  ⟨fun h => (ofNat_toNat c).symm.trans (h ▸ ofNat_toNat d), congrArg toNat⟩

/-- The character that a code point is, if it is one. -/
def char? : CodePoint → Option Char
  | char c => some c
  | surrogate _ => none

/-- The code point is a digit of the basic set. -/
def isDigit (c : CodePoint) : Bool := c.char?.any Char.isDigit

/-- The code point is a Latin letter of the basic set. -/
def isAlpha (c : CodePoint) : Bool := c.char?.any Char.isAlpha

/-- The small letter of a capital one of the basic set. -/
def toLower : CodePoint → CodePoint
  | char c => char c.toLower
  | surrogate k => surrogate k

end CodePoint

/-! ## Texts -/

/-- **A text**: its code points in turn. -/
abbrev Text := List CodePoint

namespace Text

/-- A text all of whose code points are characters. -/
def ofString (s : String) : Text := s.toList.map .char

instance : Coe String Text := ⟨ofString⟩

@[simp] theorem ofString_inj {s t : String} : ofString s = ofString t ↔ s = t :=
  ⟨fun h => String.toList_inj.mp ((List.map_inj_right fun _ _ => CodePoint.char.inj).mp h),
    congrArg ofString⟩

/-- One instance for the symbols of an alphabet, the labels of a move, the words of a language. -/
instance (s : Text) (ts : List Text) : Decidable (s ∈ ts) :=
  inferInstanceAs (Decidable (s ∈ ts))

/-- What a number is written as. -/
def spell {α : Type} [ToString α] (x : α) : Text := ofString (toString x)

/-- The characters of a text, if it has no other code points. -/
def toString? (s : Text) : Option String := (s.mapM CodePoint.char?).map String.ofList

/-! ## Ranges of code points -/

/-- The ranges are in ascending order. -/
def Ascending (ranges : List (Nat × Nat)) : Prop := ranges.Pairwise fun p q => p.2 < q.1

/-- The code point lies in one of the ascending ranges. -/
def inRanges : List (Nat × Nat) → Nat → Bool
  | [], _ => false
  | (low, high) :: rest, n => if n < low then false else if n ≤ high then true else inRanges rest n

/-- **Stopping early loses nothing**: the look-up finds a range exactly if there is one. -/
theorem inRanges_iff {n : Nat} : ∀ {ranges : List (Nat × Nat)}, (∀ p ∈ ranges, p.1 ≤ p.2) →
    Ascending ranges → (inRanges ranges n = true ↔ ∃ p ∈ ranges, p.1 ≤ n ∧ n ≤ p.2)
  | [], _, _ => by simp [inRanges]
  | (low, high) :: rest, hle, hasc => by
      obtain ⟨hfirst, hrest⟩ := List.pairwise_cons.mp hasc
      have ih := inRanges_iff (n := n) (fun p hp => hle p (List.mem_cons_of_mem _ hp)) hrest
      have hlow : low ≤ high := hle (low, high) (List.mem_cons_self ..)
      simp only [inRanges, List.mem_cons, exists_eq_or_imp]
      split
      · rename_i hn
        refine ⟨fun h => absurd h (by simp), ?_⟩
        rintro (⟨h, _⟩ | ⟨p, hp, h, _⟩)
        · omega
        · have := hfirst p hp
          omega
      · split
        · simp_all
        · rw [ih]
          refine ⟨.inr, fun h => h.resolve_left ?_⟩
          simp_all

/-! ## White space -/

/-- The code points of white space, in ascending order. -/
def blankRanges : List (Nat × Nat) := [
  (0x0009, 0x000D), (0x001C, 0x0020), (0x0085, 0x0085), (0x00A0, 0x00A0), (0x1680, 0x1680),
  (0x2000, 0x200A), (0x2028, 0x2029), (0x202F, 0x202F), (0x205F, 0x205F), (0x3000, 0x3000)]

/-- The character is white space. -/
def isBlank (c : CodePoint) : Bool := inRanges blankRanges c.toNat

/-! ## Digits -/

/-- The code points of the digits zero. -/
def zeroDigits : List Nat := [
  0x0030, 0x0660, 0x06F0, 0x07C0, 0x0966, 0x09E6, 0x0A66, 0x0AE6, 0x0B66, 0x0BE6, 0x0C66, 0x0CE6,
  0x0D66, 0x0DE6, 0x0E50, 0x0ED0, 0x0F20, 0x1040, 0x1090, 0x17E0, 0x1810, 0x1946, 0x19D0, 0x1A80,
  0x1A90, 0x1B50, 0x1BB0, 0x1C40, 0x1C50, 0xA620, 0xA8D0, 0xA900, 0xA9D0, 0xA9F0, 0xAA50, 0xABF0,
  0xFF10, 0x104A0, 0x10D30, 0x11066, 0x110F0, 0x11136, 0x111D0, 0x112F0, 0x11450, 0x114D0,
  0x11650, 0x116C0, 0x11730, 0x118E0, 0x11950, 0x11C50, 0x11D50, 0x11DA0, 0x16A60, 0x16AC0,
  0x16B50, 0x1D7CE, 0x1D7D8, 0x1D7E2, 0x1D7EC, 0x1D7F6, 0x1E140, 0x1E2F0, 0x1E950, 0x1FBF0]

/-- The value of a decimal digit of any script. -/
def digitValue? (c : CodePoint) : Option Nat :=
  (zeroDigits.find? fun z => decide (z ≤ c.toNat ∧ c.toNat < z + 10)).map (c.toNat - ·)

/-- The character is a decimal digit of any script. -/
def isDecimal (c : CodePoint) : Bool := (digitValue? c).isSome

/-- The value of a character as a digit zero to nine of the basic set. -/
def basicDigit? (c : CodePoint) : Option Nat :=
  if '0' ≤ c ∧ c ≤ '9' then some (c.toNat - '0'.toNat) else none

/-- The value of a character as a hexadecimal digit. -/
def hexDigit? (c : CodePoint) : Option Nat :=
  if '0' ≤ c ∧ c ≤ '9' then some (c.toNat - '0'.toNat)
  else if 'a' ≤ c ∧ c ≤ 'f' then some (c.toNat - 'a'.toNat + 10)
  else if 'A' ≤ c ∧ c ≤ 'F' then some (c.toNat - 'A'.toNat + 10)
  else none

/-- The greatest number of digits that a numeral may have. -/
def numeralLimit : Nat := 4300

/-- The number a list of digits stands for, the highest place first. -/
def ofDigits (base : Nat) (digits : List Nat) : Nat := digits.foldl (fun n d => base * n + d) 0

/-! ## Integers -/

/-- White space that may stand around an integer: any but the separators of files, groups, records
and units. -/
def isMargin (c : CodePoint) : Bool := isBlank c && !('\x1c' ≤ c && c ≤ '\x1f')

/-- The digits of an integer, single low lines between them allowed, as their values. -/
def digitRun : Text → Option (List Nat)
  | [] => none
  | [c] => (digitValue? c).map fun d => [d]
  | c :: '_' :: rest => do return (← digitValue? c) :: (← digitRun rest)
  | c :: rest => do return (← digitValue? c) :: (← digitRun rest)

/-- **The integer that a text spells**, if it spells one with no more digits than a numeral may
have. -/
def readInteger (s : Text) : Option Int :=
  let trimmed := ((s.dropWhile isMargin).reverse.dropWhile isMargin).reverse
  let (negative, digits) := match trimmed with
    | '-' :: r => (true, r)
    | '+' :: r => (false, r)
    | r => (false, r)
  match digitRun digits with
  | some ds =>
    if numeralLimit < ds.length then none
    else some (if negative then -(ofDigits 10 ds : Int) else ofDigits 10 ds)
  | none => none

end Text

end FiniteAutomata
