import FiniteAutomata.Sorting.Merge

/-!
# Sorting/Runs — sorting by runs

A list is parted into runs that are in order already. A run that descends is turned round, and one
that is short takes in some of the values behind it. The runs are merged in pairs of neighbours, and
as evenly as if the list were halved again and again: two neighbours that such halving parts late
are merged early.
-/

namespace FiniteAutomata.Sorting

variable {ε α : Type} (less : α → α → Except ε Bool)

/-! ## Runs -/

/-- The values that go on descending, or not descending, after the last one; and the others. -/
def runAfter (descending : Bool) (last : α) : List α → Except ε (List α × List α)
  | [] => .ok ([], [])
  | x :: xs => do
    if (← less x last) = descending then
      let (run, rest) ← runAfter descending x xs
      return (x :: run, rest)
    else return ([], x :: xs)

/-- The value put into a sorted list, after those that do not come after it. It is compared with the
one in the middle first, and then goes into one half. -/
def insertSorted (x : α) (ys : List α) : Except ε (List α) :=
  if h : ys.length = 0 then .ok [x]
  else do
    let k := ys.length / 2
    have hk : k < ys.length := Nat.div_lt_self (Nat.pos_of_ne_zero h) Nat.one_lt_two
    if ← less x ys[k] then return (← insertSorted x (ys.take k)) ++ ys.drop k
    else return ys.take (k + 1) ++ (← insertSorted x (ys.drop (k + 1)))
termination_by ys.length
decreasing_by
  all_goals
    simp only [List.length_take, List.length_drop]
    omega

/-- The first run of a list, of so many values at least where there are as many; and the others. -/
def nextRun (least : Nat) : List α → Except ε (List α × List α)
  | x :: y :: xs => do
    let descending ← less y x
    let (run, rest) ← runAfter less descending y xs
    let run := x :: y :: run
    let run := if descending then run.reverse else run
    let lacking := least - run.length
    let run ← (rest.take lacking).foldlM (fun ys x => insertSorted less x ys) run
    return (run, rest.drop lacking)
  | xs => .ok (xs, [])

/-- The length of a list below which it is one run. -/
def shortLength : Nat := 64

/-- The least length of a run, of a list that has `n` values, or twice as many or more. A remainder
counts as one value. -/
def leastRunFrom (remainder : Bool) (n : Nat) : Nat :=
  if h : n < shortLength then n + remainder.toNat
  else leastRunFrom (remainder || n % 2 == 1) (n / 2)
termination_by n
decreasing_by
  have : 0 < n := Nat.lt_of_lt_of_le (by decide) (Nat.le_of_not_lt h)
  omega

/-- **The least length of a run in a list of `n` values**: all of a short list, and of a long one so
many that the number of runs is a power of two, or hardly less. -/
def leastRun (n : Nat) : Nat := leastRunFrom false n

variable {less}

/-- Values none of which comes before its neighbour on the left are one run. -/
theorem runAfter_of_pairwise {x : α} {xs : List α}
    (h : (x :: xs).Pairwise fun a b => less b a = .ok false) :
    runAfter less false x xs = .ok (xs, []) := by
  induction xs generalizing x with
  | nil => rfl
  | cons y ys ih =>
    have hxy : less y x = .ok false := List.rel_of_pairwise_cons h (List.mem_cons_self ..)
    simp [runAfter, hxy, ih h.of_cons, bind, Except.bind, pure, Except.pure]

/-- They are the first run of their list, however short it is. -/
theorem nextRun_of_pairwise {least : Nat} {xs : List α}
    (h : xs.Pairwise fun a b => less b a = .ok false) : nextRun less least xs = .ok (xs, []) := by
  match xs with
  | [] | [_] => rfl
  | x :: y :: ys =>
    have hxy : less y x = .ok false := List.rel_of_pairwise_cons h (List.mem_cons_self ..)
    simp [nextRun, hxy, runAfter_of_pairwise h.of_cons, bind, Except.bind, pure, Except.pure]

variable (less)

/-! ## Merging the runs -/

/-- How often a list of `n` values is halved before the middles of two neighbouring runs lie in
different parts. The first run begins at a place of the list. -/
def partingDepth (n place length₁ length₂ : Nat) : Nat :=
  let (middle₁, middle₂) := (2 * place + length₁, 2 * place + 2 * length₁ + length₂)
  let parts := fun k => middle₁ * Nat.pow 2 k / n != middle₂ * Nat.pow 2 k / n
  ((List.range (n.log2 + 1)).find? parts).getD n

/-- **The runs that wait for being merged**: the last one, and those before it, the nearest first,
each with the depth at which it is parted from the next. -/
structure Waiting (α : Type) where
  /-- The place of the list at which the last run begins. -/
  place : Nat
  last : List α
  earlier : List (List α × Nat)
  patience : Nat
deriving Repr

/-- Merges the last run with those before it that are parted from the next below a depth. -/
def settle (depth patience : Nat) (last : List α) :
    List (List α × Nat) → Except ε (List α × List (List α × Nat) × Nat)
  | [] => .ok (last, [], patience)
  | (run, d) :: earlier =>
    if depth < d then do
      let (last, patience) ← merge less patience run last
      settle depth patience last earlier
    else .ok (last, (run, d) :: earlier, patience)

/-- The runs after one more has been found in a list of `n` values. -/
def Waiting.push (n : Nat) (w : Waiting α) (run : List α) : Except ε (Waiting α) := do
  let depth := partingDepth n w.place w.last.length run.length
  let (last, earlier, patience) ← settle less depth w.patience w.last w.earlier
  return ⟨w.place + w.last.length, run, (last, depth) :: earlier, patience⟩

/-- The runs after those of the rest of a list of `n` values have been found, at most so many. -/
def Waiting.pushAll (n : Nat) : Nat → Waiting α → List α → Except ε (Waiting α)
  | k + 1, w, x :: xs => do
    let (run, rest) ← nextRun less (leastRun n) (x :: xs)
    pushAll n k (← w.push less n run) rest
  | _, w, _ => .ok w

/-- Merges all runs, the last one first. Where the third from the end is shorter than the last it is
merged before. -/
def collapse (patience : Nat) : List (List α) → Except ε (List α)
  | [] => .ok []
  | [run] => .ok run
  | [run, before] => do return (← merge less patience before run).1
  | run :: before :: third :: earlier =>
    if third.length < run.length then do
      let (merged, patience) ← merge less patience third before
      collapse patience (run :: merged :: earlier)
    else do
      let (merged, patience) ← merge less patience before run
      collapse patience (merged :: third :: earlier)
termination_by runs => runs.length

/-- **The values in ascending order**, those that are equal in the order they have. A single value
is compared with nothing. -/
def sort (xs : List α) : Except ε (List α) := do
  let (run, rest) ← nextRun less (leastRun xs.length) xs
  let w ← Waiting.pushAll less xs.length rest.length ⟨0, run, [], gallopLength⟩ rest
  collapse less w.patience (w.last :: w.earlier.map (·.1))

/-- **Values that are in order stay as they are.** -/
theorem sort_of_pairwise {xs : List α} (h : xs.Pairwise fun a b => less b a = .ok false) :
    sort less xs = .ok xs := by
  simp [sort, nextRun_of_pairwise h, Waiting.pushAll, collapse, bind, Except.bind]

end FiniteAutomata.Sorting
