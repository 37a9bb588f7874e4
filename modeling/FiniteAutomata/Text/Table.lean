import FiniteAutomata.Text.Width

/-!
# Text/Table — boxed tables

A `Table` has a heading for each column and rows of cells. `Table.render?` draws it: a rule, the
headings, a rule, the rows and a rule, each column as wide as its widest cell. A heading is drawn in
one piece, whatever is in it; the tabs of a cell are drawn as blanks and its lines one below the
other. A table two of whose headings are equal is refused, and no other (`Table.isSome_render?`).
-/

namespace FiniteAutomata

/-- **A table**: its headings, and rows of as many cells. -/
structure Table where
  columns : List Text
  /-- The first column is set to the right; all others are centred. -/
  rightFirst : Bool
  rows : List (List Text)
deriving DecidableEq, Repr

namespace Text

/-- So many blanks. -/
def blanks (n : Nat) : Text := List.replicate n ' '

/-- The text at the right end of a field of width `w`. -/
def setRight (w : Nat) (s : Text) : Text := blanks (w - width s) ++ s

/-- The text in the middle of a field of width `w`. Where the blanks cannot be shared evenly, the
larger part stands before a text of even width and after one of odd width. -/
def setCentre (w : Nat) (s : Text) : Text :=
  let smaller := (w - width s) / 2
  let larger := w - width s - smaller
  let (before, after) := if width s % 2 = 0 then (larger, smaller) else (smaller, larger)
  blanks before ++ s ++ blanks after

/-- The width of the widest line of a text. -/
def blockWidth (s : Text) : Nat := ((lines s).map width).foldl max 0

/-- The text with blanks in place of its tabs, from a column on. Only the ends of lines begin at the
first column again. -/
def withoutTabs : Nat → Text → Text
  | _, [] => []
  | column, c :: s =>
    if c = '\t' then
      let n := tabWidth - column % tabWidth
      blanks n ++ withoutTabs (column + n) s
    else c :: withoutTabs (if c = '\n' ∨ c = '\r' then 0 else column + 1) s

end Text

namespace Table

open Text

/-- The width of each column: that of its widest cell, the heading among them. -/
def widths (t : Table) : List Nat :=
  t.rows.foldl (fun ws row => List.zipWith (fun w cell => max w (blockWidth cell)) ws row)
    (t.columns.map blockWidth)

/-- A horizontal rule. -/
def rule (ws : List Nat) : Text :=
  "+" ++ List.intercalate ("+" : Text) (ws.map fun w => List.replicate (w + 2) '-') ++ "+"

/-- The texts of one line, each set in its column. -/
def line (rightFirst : Bool) (ws : List Nat) (cells : List Text) : Text :=
  let place := fun (k : Nat) (w : Nat) (s : Text) =>
    if rightFirst && k == 0 then setRight w s else setCentre w s
  let fields := (ws.zip cells).mapIdx fun k p => " " ++ place k p.1 p.2 ++ " "
  "|" ++ List.intercalate "|" fields ++ "|"

/-- The line of the headings. One that is wider than its column, as its lines are not, keeps as many
characters as the column has places. -/
def headingLine (t : Table) (ws : List Nat) : Text :=
  line t.rightFirst ws ((ws.zip t.columns).map fun p =>
    if p.1 < width p.2 then p.2.take p.1 else p.2)

/-- The lines of a row: as many as its tallest cell has, the others filled up below. -/
def rowLines (rightFirst : Bool) (ws : List Nat) (cells : List Text) : List Text :=
  let height := (cells.map fun s => (lines s).length).foldl max 0
  (List.range height).map fun k =>
    line rightFirst ws (cells.map fun s => ((lines s)[k]?).getD [])

/-- The table as it is drawn, its cells without tabs. -/
def prepared (t : Table) : Table :=
  { t with rows := t.rows.map fun row => row.map (withoutTabs 0) }

/-- **The table as text**, lines parted by line feeds, unless two headings are equal. -/
def render? (t : Table) : Option Text :=
  if t.columns.Nodup then
    let t := t.prepared
    let ws := t.widths
    some (List.intercalate "\n"
      ([rule ws, t.headingLine ws, rule ws] ++ t.rows.flatMap (rowLines t.rightFirst ws)
        ++ [rule ws]))
  else none

/-- **Only a repeated heading keeps a table from being drawn.** -/
theorem isSome_render? (t : Table) : t.render?.isSome = true ↔ t.columns.Nodup := by
  unfold render?
  split <;> simp_all

end Table

end FiniteAutomata
