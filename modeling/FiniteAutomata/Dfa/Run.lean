import FiniteAutomata.Dfa.Basic

/-!
# Dfa/Run — where a word leads

`Dfa.run` follows a word from a state, unless a move is missing on the way. A word of symbols of the
alphabet is accepted exactly when it leads to an accepting state (`Dfa.acceptsFrom_iff`).
-/

namespace FiniteAutomata

namespace Dfa

variable {σ : Type} (D : Dfa σ)

/-- **The state to which a word leads from a state**, if it leads anywhere. -/
def run (i : Nat) : List Symbol → Option Nat
  | [] => some i
  | a :: w => (D.target i a).bind fun j => run j w

@[simp] theorem run_nil (i : Nat) : D.run i [] = some i := rfl

@[simp] theorem run_cons (i : Nat) (a : Symbol) (w : List Symbol) :
    D.run i (a :: w) = (D.target i a).bind fun j => D.run j w := rfl

/-- A word leads where its second part leads from where its first part led. -/
theorem run_append (i : Nat) (v w : List Symbol) :
    D.run i (v ++ w) = (D.run i v).bind fun j => D.run j w := by
  induction v generalizing i with
  | nil => rfl
  | cons a v ih =>
    simp only [List.cons_append, run_cons, Option.bind_assoc]
    exact congrArg _ (funext ih)

/-- **A word is accepted when its symbols are in the alphabet and it leads to an accepting state.**
-/
theorem acceptsFrom_iff [Identity σ] {i : Nat} {w : List Symbol} :
    D.acceptsFrom i w = true ↔
      (∀ a ∈ w, a ∈ D.alphabet) ∧ ∃ j, D.run i w = some j ∧ D.isAccepting j = true := by
  induction w generalizing i with
  | nil => simp [acceptsFrom]
  | cons a w ih =>
    by_cases ha : a ∈ D.alphabet
    · cases ht : D.target i a with
      | none => simp [acceptsFrom, ha, ht]
      | some j => simp [acceptsFrom, ha, ht, ih]
    · simp [acceptsFrom, ha]

end Dfa

end FiniteAutomata
