/-!
# Minimized/Marks — a set of unordered pairs of states

`Marks n` says of each two of the states below `n` whether the pair is marked. Marking a pair marks
it both ways round, and nothing else (`Marks.has_mark`).
-/

namespace FiniteAutomata

/-- **Which pairs of states below `n` are marked**, a truth value for each ordered pair. -/
structure Marks (n : Nat) where
  cells : Array Bool
  size_cells : cells.size = n * n

namespace Marks

variable {n : Nat}

/-- No pair is marked. -/
def none : Marks n := ⟨Array.replicate (n * n) false, by simp⟩

/-- The pair is marked. -/
def has (m : Marks n) (i j : Nat) : Bool := m.cells.getD (i * n + j) false

/-- The marks with one more pair, marked both ways round. -/
def mark (m : Marks n) (i j : Nat) : Marks n :=
  ⟨(m.cells.setIfInBounds (i * n + j) true).setIfInBounds (j * n + i) true, by simp [m.size_cells]⟩

/-! ## What is marked -/

@[simp] theorem has_none (i j : Nat) : (none : Marks n).has i j = false := by
  simp only [has, none, Array.getD_eq_getD_getElem?, Array.getElem?_replicate]
  split <;> rfl

/-- Each pair has a cell of its own. -/
theorem cell_inj {i j x y : Nat} (hj : j < n) (hy : y < n) (h : i * n + j = x * n + y) :
    i = x ∧ j = y := by
  have hjy : j = y := by
    have hmod := congrArg (· % n) h
    simpa [Nat.mul_add_mod', Nat.mod_eq_of_lt hj, Nat.mod_eq_of_lt hy] using hmod
  subst hjy
  exact ⟨Nat.eq_of_mul_eq_mul_right (Nat.zero_lt_of_lt hj) (Nat.add_right_cancel h), rfl⟩

theorem cell_lt {i j : Nat} (hi : i < n) (hj : j < n) : i * n + j < n * n :=
  calc
    i * n + j < i * n + n := Nat.add_lt_add_left hj _
    _ = (i + 1) * n := (Nat.succ_mul i n).symm
    _ ≤ n * n := Nat.mul_le_mul_right n hi

/-- A cell of an array in which one cell was set. -/
theorem getD_setIfInBounds {cells : Array Bool} {c d : Nat} (hc : c < cells.size) :
    (cells.setIfInBounds c true).getD d false = true ↔ d = c ∨ cells.getD d false = true := by
  rw [Array.getD_eq_getD_getElem?, Array.getD_eq_getD_getElem?, Array.getElem?_setIfInBounds]
  by_cases h : c = d
  · subst h
    simp [hc]
  · simp [h, Ne.symm h]

/-- **Marking marks the pair both ways round and nothing else.** -/
theorem has_mark {m : Marks n} {i j x y : Nat} (hi : i < n) (hj : j < n) (hy : y < n) :
    (m.mark i j).has x y = true ↔ (x = i ∧ y = j) ∨ (x = j ∧ y = i) ∨ m.has x y = true := by
  have hij : i * n + j < m.cells.size := m.size_cells ▸ cell_lt hi hj
  have hji : j * n + i < (m.cells.setIfInBounds (i * n + j) true).size := by
    rw [Array.size_setIfInBounds, m.size_cells]
    exact cell_lt hj hi
  have cell_eq : ∀ {k l : Nat}, l < n → (x * n + y = k * n + l ↔ x = k ∧ y = l) := fun hl =>
    ⟨cell_inj hy hl, fun ⟨hk, hl⟩ => hk ▸ hl ▸ rfl⟩
  rw [has, mark, getD_setIfInBounds hji, getD_setIfInBounds hij, cell_eq hi, cell_eq hj, has]
  exact or_left_comm

end Marks

end FiniteAutomata
