import FiniteAutomata.Text.CodePoint

/-!
# Alphabet — input symbols, alphabets, and the labels of moves

A symbol is any text. An `Alphabet` is a finite ordered list of symbols without repetition that
holds neither the empty text nor the sign of the empty move. A `Label` is what a move reads:
nothing, or one symbol; `Label.ofText` names the empty move by its sign, so no symbol of an
alphabet is ever taken for it (`Label.ofText_of_mem`).
-/

namespace FiniteAutomata

/-- A symbol is any text. -/
abbrev Symbol := Text

/-- The sign of the empty move. -/
def epsilonSign : Symbol := "ε"

/-- The sign of the empty set, and of a move that is missing. -/
def emptySetSign : Text := "Ø"

/-- What a move reads: nothing, or one symbol. -/
inductive Label where
  | epsilon
  | symbol (a : Symbol)
deriving DecidableEq, Repr

/-- The label a text names: the sign of the empty move names the empty move. -/
def Label.ofText (a : Symbol) : Label :=
  if a = epsilonSign then .epsilon else .symbol a

/-- **An alphabet lists its symbols once each, in a fixed order.** -/
structure Alphabet where
  symbols : List Symbol
  nodup : symbols.Nodup
  epsilon_notMem : epsilonSign ∉ symbols
  empty_notMem : ("" : Symbol) ∉ symbols
deriving DecidableEq

namespace Alphabet

instance : Membership Symbol Alphabet := ⟨fun A a => a ∈ A.symbols⟩

instance (a : Symbol) (A : Alphabet) : Decidable (a ∈ A) :=
  inferInstanceAs (Decidable (a ∈ A.symbols))

@[simp] theorem mem_symbols {A : Alphabet} {a : Symbol} : a ∈ A.symbols ↔ a ∈ A := Iff.rfl

/-- The number of symbols. -/
def size (A : Alphabet) : Nat := A.symbols.length

/-- The alphabet as one line of text. -/
def describe (A : Alphabet) : Text :=
  "Alphabet(" ++ List.intercalate "," A.symbols ++ ")"

end Alphabet

/-- A symbol of an alphabet never names the empty move. -/
theorem Label.ofText_of_mem {A : Alphabet} {a : Symbol} (h : a ∈ A) :
    Label.ofText a = .symbol a := by
  have hne : a ≠ epsilonSign := fun he => A.epsilon_notMem (he ▸ h)
  simp [Label.ofText, hne]

end FiniteAutomata
