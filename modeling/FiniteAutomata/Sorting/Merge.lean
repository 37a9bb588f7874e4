/-!
# Sorting/Merge — two sorted lists put into one

Comparing two values may fail, and values need not be in any order, so it matters which ones are
compared: the result and the failure that comes first hang on it. `merge` first passes over what
need not move at the two outer ends, and then takes the values from the side on which the shorter
list stands. It takes them one at a time until one list wins often in a row, and then many at once,
as many as a search in growing strides finds.
-/

namespace FiniteAutomata.Sorting

variable {ε α : Type}

/-! ## Search from an end -/

/-- The end of a list that values are taken from. From the right, the list is given in reverse. -/
inductive Side where
  | left | right
deriving DecidableEq, Repr

/-- The outcome of a test at a place of a list; beyond the list nothing passes. -/
def passesAt (test : α → Except ε Bool) (xs : List α) (i : Nat) : Except ε Bool :=
  match xs[i]? with
  | some x => test x
  | none => .ok false

/-- Two places between which the values cease to pass a test: the first passes, the second does not
or is the end. They are looked for in strides that double. -/
def stride (test : α → Except ε Bool) (xs : List α) (last next : Nat) : Except ε (Nat × Nat) :=
  if next < xs.length then do
    if ← passesAt test xs next then stride test xs next (2 * next + 1) else return (last, next)
  else return (last, xs.length)
termination_by xs.length - next

/-- How many values pass a test, at least `low` and at most `high`, by halves. Of two places in the
middle it looks at the one on the right. -/
def halve (side : Side) (test : α → Except ε Bool) (xs : List α) (low high : Nat) : Except ε Nat :=
  if low < high then do
    let half := (high - low) / 2
    let middle := match side with
      | .left => low + half
      | .right => high - 1 - half
    if ← passesAt test xs middle then halve side test xs (middle + 1) high
    else halve side test xs low middle
  else return low
termination_by high - low
decreasing_by all_goals cases side <;> grind

/-- **How many values at the beginning of a list pass a test** that holds of a beginning. -/
def countPassing (side : Side) (test : α → Except ε Bool) (xs : List α) : Except ε Nat := do
  if ← passesAt test xs 0 then
    let (last, next) ← stride test xs 0 1
    halve side test xs (last + 1) next
  else return 0

/-! ## Merging -/

/-- **Two lists on the way into one**: what is left of the shorter and of the longer one, and what
is merged already, the last value first. -/
structure Merging (α : Type) where
  few : List α
  many : List α
  merged : List α
  /-- How often in a row a list wins before values are taken many at once. -/
  patience : Nat
deriving Repr

/-- How values are taken: one at a time, after so many in a row from the shorter or from the longer
list; or many at once. -/
inductive Pace where
  | single (few many : Nat)
  | gallop
deriving DecidableEq, Repr

/-- A pace with its patience used up gives way to the gallop. -/
def Pace.kept (patience : Nat) : Pace → Pace
  | .single a b => if patience ≤ max a b then .gallop else .single a b
  | .gallop => .gallop

/-- The least number of values taken at once that keeps up the gallop, and the patience at first. -/
def gallopLength : Nat := 7

namespace Merging

/-- The values, those not yet merged behind the others. -/
def toList (m : Merging α) : List α := m.merged.reverse ++ m.many ++ m.few

/-- Nothing is left to compare: the last value of the shorter list goes behind all others. -/
def isOver (m : Merging α) : Bool :=
  match m.few, m.many with
  | _ :: _ :: _, _ :: _ => false
  | _, _ => true

/-- The values at the head of the shorter list are merged. -/
def takeFew (m : Merging α) (k : Nat) : Merging α :=
  { m with few := m.few.drop k, merged := (m.few.take k).reverse ++ m.merged }

/-- The values at the head of the longer list are merged. -/
def takeMany (m : Merging α) (k : Nat) : Merging α :=
  { m with many := m.many.drop k, merged := (m.many.take k).reverse ++ m.merged }

variable (less : α → α → Except ε Bool) (side : Side)

/-- Whether a value of the longer list goes before one of the shorter list. Values that are equal
keep their order. -/
def manyFirst (few many : α) : Except ε Bool :=
  match side with
  | .left => less many few
  | .right => less few many

/-- Merges what goes before the head of the longer list, and that head. It also says how many values
went before. -/
def gallopFew (m : Merging α) : Except ε (Merging α × Nat) :=
  match m.many with
  | [] => .ok (m, 0)
  | b :: _ => do
    let k ← countPassing side (fun a => return !(← manyFirst less side a b)) m.few
    let m := m.takeFew k
    return (if m.isOver then m else m.takeMany 1, k)

/-- Merges what goes before the head of the shorter list, and that head. It also says how many
values went before. -/
def gallopMany (m : Merging α) : Except ε (Merging α × Nat) :=
  match m.few with
  | [] => .ok (m, 0)
  | a :: _ => do
    let k ← countPassing side (fun b => manyFirst less side a b) m.many
    let m := m.takeMany k
    return (if m.isOver then m else m.takeFew 1, k)

/-- Merges on, in at most so many steps. The gallop begins with the list on the left, and the
patience shrinks as long as it goes on. -/
def proceed : Nat → Pace → Merging α → Except ε (Merging α)
  | 0, _, m => .ok m
  | k + 1, .single inFew inMany, m =>
    match m.isOver, m.few, m.many with
    | false, a :: _, b :: _ => do
      if ← manyFirst less side a b then
        proceed k (Pace.kept m.patience (.single 0 (inMany + 1))) (m.takeMany 1)
      else proceed k (Pace.kept m.patience (.single (inFew + 1) 0)) (m.takeFew 1)
    | _, _, _ => .ok m
  | k + 1, .gallop, m => do
    let (first, second) := match side with
      | .left => (gallopFew less side, gallopMany less side)
      | .right => (gallopMany less side, gallopFew less side)
    if m.isOver then return m
    let (m, i) ← first m
    if m.isOver then return m
    let (m, j) ← second m
    if m.isOver then return m
    if gallopLength ≤ max i j then proceed k .gallop { m with patience := max 1 (m.patience - 1) }
    else proceed k (.single 0 0) { m with patience := m.patience + 1 }

/-- Merges to the end. The head of the longer list is known to go first. -/
def finish (m : Merging α) : Except ε (Merging α) :=
  proceed less side (m.few.length + m.many.length) (.single 0 0) (m.takeMany 1)

end Merging

/-- **Merges two sorted lists**, the first of which goes first where values are equal. The patience
is handed on to the next merging. -/
def merge (less : α → α → Except ε Bool) (patience : Nat) (xs ys : List α) :
    Except ε (List α × Nat) :=
  match ys with
  | [] => .ok (xs, patience)
  | y :: _ => do
    let k ← countPassing .left (fun x => return !(← less y x)) xs
    match (xs.drop k).getLast? with
    | none => return (xs ++ ys, patience)
    | some x => do
      let j ← countPassing .right (fun y => return !(← less y x)) ys.reverse
      let (first, second) := (xs.drop k, ys.take (ys.length - j))
      let around := fun (s : List α) => xs.take k ++ s ++ ys.drop (ys.length - j)
      if second.isEmpty then return (xs ++ ys, patience)
      else if first.length ≤ second.length then
        let m ← Merging.finish less .left ⟨first, second, [], patience⟩
        return (around m.toList, m.patience)
      else
        let m ← Merging.finish less .right ⟨second.reverse, first.reverse, [], patience⟩
        return (around m.toList.reverse, m.patience)

end FiniteAutomata.Sorting
