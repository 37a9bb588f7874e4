import FiniteAutomata.Layout
import Mathlib.Computability.Language

/-!
# Proofs/Layout/Grammar — the texts a description is spelled as

A `Description` is what a text says, wherever in it that stands. The texts that spell it are those
of a language (`Grammar.texts`) which is put together from its parts: spaces and tabs may stand
before each token, and must stand between two symbols, since those have no other end; lines are
parted by runs of line ends, which may also stand before the first line and after the last.

A text *begins* with a language (`Begins`) if it has a word of it before what is left.
-/

open scoped Computability

namespace FiniteAutomata.Layout

/-- **What is written in a description**: the numerals as digits, and for each row its label and its
sets. -/
structure Description where
  declared : Digits
  symbols : List Symbol
  rows : List (Digits × List (List Digits))
  initial : Digits
  accepting : List Digits
deriving DecidableEq, Repr

/-- What a layout says, without the places at which it stands. -/
def description (l : Layout) : Description where
  declared := l.declared
  symbols := l.symbols.map (·.1)
  rows := l.rows.map fun r => (r.label, r.sets)
  initial := l.initial
  accepting := l.accepting

/-! ## Tokens -/

/-- A numeral has a digit, and nothing else than digits. -/
def IsNumeral (ds : Digits) : Prop := ds ≠ [] ∧ ∀ c ∈ ds, c.isDigit = true

/-- A symbol has a character, and no white space or sign of the layout. -/
def IsSymbol (a : Symbol) : Prop :=
  a ≠ [] ∧ ∀ c ∈ a, Text.isBlank c = false ∧ c ∉ (['{', '}', ',', ':'] : Text)

namespace Grammar

/-- A space or a tab. -/
def gap : Language CodePoint := {([' '] : Text), (['\t'] : Text)}

/-- Spaces and tabs, perhaps none. -/
def gaps : Language CodePoint := gap∗

/-- The end of a line. -/
def lineEnd : Language CodePoint := {(['\n'] : Text), (['\r', '\n'] : Text)}

/-- Ends of lines with nothing between them, after spaces and tabs. -/
def lineEnds : Language CodePoint := gaps * (lineEnd * lineEnd∗)

/-- A token after spaces and tabs. -/
def token (w : Text) : Language CodePoint := gaps * {w}

/-- Fixed tokens one after the other. -/
def tokens (ts : List Text) : Language CodePoint := (ts.map fun t => token t).prod

def numeral (ds : Digits) : Language CodePoint := {w | IsNumeral ds ∧ w ∈ token ds}

def symbol (a : Symbol) : Language CodePoint := {w | IsSymbol a ∧ w ∈ token a}

/-- A line of dashes. -/
def rule : Language CodePoint := gaps * ({(['-'] : Text)} * {(['-'] : Text)}∗) * lineEnds

/-! ## Parts -/

/-- Symbols with spaces or tabs between them. -/
def symbols : List Symbol → Language CodePoint
  | [] => 1
  | a :: as => symbol a * (as.map fun b => gap * symbol b).prod

/-- Numerals with commas between them. -/
def numerals : List Digits → Language CodePoint
  | [] => 1
  | n :: ns => numeral n * (ns.map fun m => token [','] * numeral m).prod

def set (ns : List Digits) : Language CodePoint := token ['{'] * numerals ns * token ['}']

/-- Sets, at least one. -/
def sets : List (List Digits) → Language CodePoint
  | [] => 0
  | ns :: nss => set ns * (nss.map set).prod

/-- A row: a label, a colon and sets. -/
def row (r : Digits × List (List Digits)) : Language CodePoint :=
  numeral r.1 * token [':'] * sets r.2 * lineEnds

/-- Rows, at least one. -/
def rows : List (Digits × List (List Digits)) → Language CodePoint
  | [] => 0
  | r :: rs => row r * (rs.map row).prod

/-! ## Texts -/

/-- Rows between two lines of dashes. -/
def table (rs : List (Digits × List (List Digits))) : Language CodePoint := rule * rows rs * rule

/-- A line that begins with fixed tokens. -/
def line (ts : List Text) (L : Language CodePoint) : Language CodePoint := tokens ts * L * lineEnds

/-- **The texts that spell a description.** -/
def texts (d : Description) : Language CodePoint :=
  (1 + lineEnds) *
  line ["|Q|", ":"] (numeral d.declared) *
  line ["Sigma", ":"] (symbols d.symbols) *
  table d.rows *
  line ["Initial", "State", ":"] (numeral d.initial) *
  (tokens ["Accepting", "State(s)", ":"] * numerals d.accepting) *
  ((1 + lineEnds) * gaps)

end Grammar

/-! ## What is left after a word of a language -/

/-- **The text begins with a word of the language**, after which `rest` is left. -/
def Begins (L : Language CodePoint) (s rest : Text) : Prop := ∃ w ∈ L, s = w ++ rest

section

variable {L M : Language CodePoint} {s rest : Text}

theorem mem_iff_begins : s ∈ L ↔ Begins L s [] := by
  simp [Begins]

theorem begins_one : Begins 1 s rest ↔ s = rest := by
  simp [Begins, Language.mem_one]

theorem not_begins_zero : ¬ Begins 0 s rest := fun ⟨_, hw, _⟩ => Language.notMem_zero _ hw

theorem begins_add : Begins (L + M) s rest ↔ Begins L s rest ∨ Begins M s rest := by
  simp only [Begins, Language.mem_add, or_and_right, exists_or]

theorem begins_mul : Begins (L * M) s rest ↔ ∃ mid, Begins L s mid ∧ Begins M mid rest := by
  constructor
  · rintro ⟨_, hw, rfl⟩
    obtain ⟨u, hu, v, hv, rfl⟩ := Language.mem_mul.mp hw
    exact ⟨v ++ rest, ⟨u, hu, List.append_assoc u v rest⟩, v, hv, rfl⟩
  · rintro ⟨_, ⟨u, hu, rfl⟩, v, hv, rfl⟩
    exact ⟨u ++ v, Language.append_mem_mul hu hv, (List.append_assoc u v rest).symm⟩

theorem Begins.length_le (h : Begins L s rest) : rest.length ≤ s.length := by
  obtain ⟨w, _, rfl⟩ := h
  simp

end

/-! ## What can be spelled -/

/-- All numerals of a description. -/
def Description.numerals (d : Description) : List Digits :=
  d.declared :: d.initial :: (d.accepting ++ d.rows.flatMap fun r => r.1 :: r.2.flatten)

theorem Description.forall_mem_numerals {d : Description} {P : Digits → Prop} :
    (∀ ds ∈ d.numerals, P ds) ↔ P d.declared ∧ P d.initial ∧ (∀ ds ∈ d.accepting, P ds) ∧
      ∀ r ∈ d.rows, P r.1 ∧ ∀ ds ∈ r.2.flatten, P ds := by
  simp only [numerals, List.forall_mem_cons, List.forall_mem_append, List.forall_mem_flatMap]

section

variable {L M : Language CodePoint} {w : Text}

theorem exists_mem_of_mem_mul (h : w ∈ L * M) : (∃ u, u ∈ L) ∧ ∃ v, v ∈ M := by
  obtain ⟨u, hu, v, hv, _⟩ := Language.mem_mul.mp h
  exact ⟨⟨u, hu⟩, v, hv⟩

theorem exists_mem_of_mem_prod {β : Type} {L : β → Language CodePoint} {bs : List β}
    (h : w ∈ (bs.map L).prod) : ∀ b ∈ bs, ∃ v, v ∈ L b := by
  induction bs generalizing w with
  | nil => exact fun _ hb => absurd hb List.not_mem_nil
  | cons b bs ih =>
    obtain ⟨hb, v, hv⟩ := exists_mem_of_mem_mul h
    exact List.forall_mem_cons.mpr ⟨hb, ih hv⟩

end

namespace Grammar

variable {w : Text} {d : Description}

theorem isNumeral_of_mem_numerals {ns : List Digits} (h : w ∈ numerals ns) :
    ∀ n ∈ ns, IsNumeral n := by
  cases ns with
  | nil => exact fun _ hn => absurd hn List.not_mem_nil
  | cons n ns =>
    obtain ⟨⟨_, hn, _⟩, _, hns⟩ := exists_mem_of_mem_mul h
    refine List.forall_mem_cons.mpr ⟨hn, fun m hm => ?_⟩
    obtain ⟨_, hm⟩ := exists_mem_of_mem_prod hns m hm
    obtain ⟨_, _, hm, _⟩ := exists_mem_of_mem_mul hm
    exact hm

theorem isNumeral_of_mem_set {ns : List Digits} (h : w ∈ set ns) : ∀ n ∈ ns, IsNumeral n := by
  obtain ⟨⟨_, h⟩, _⟩ := exists_mem_of_mem_mul h
  obtain ⟨_, _, hns⟩ := exists_mem_of_mem_mul h
  exact isNumeral_of_mem_numerals hns

theorem isNumeral_of_mem_sets {nss : List (List Digits)} (h : w ∈ sets nss) :
    ∀ n ∈ nss.flatten, IsNumeral n := by
  cases nss with
  | nil => exact absurd h (Language.notMem_zero w)
  | cons ns nss =>
    obtain ⟨⟨_, hns⟩, _, hnss⟩ := exists_mem_of_mem_mul h
    rw [List.flatten_cons, List.forall_mem_append]
    refine ⟨isNumeral_of_mem_set hns, fun n hn => ?_⟩
    obtain ⟨ns, hns, hn⟩ := List.mem_flatten.mp hn
    obtain ⟨_, hset⟩ := exists_mem_of_mem_prod hnss ns hns
    exact isNumeral_of_mem_set hset n hn

theorem isNumeral_of_mem_row {r : Digits × List (List Digits)} (h : w ∈ row r) :
    ∀ n ∈ r.1 :: r.2.flatten, IsNumeral n := by
  obtain ⟨⟨_, h⟩, _⟩ := exists_mem_of_mem_mul h
  obtain ⟨⟨_, h⟩, _, hsets⟩ := exists_mem_of_mem_mul h
  obtain ⟨⟨_, hlabel, _⟩, _⟩ := exists_mem_of_mem_mul h
  exact List.forall_mem_cons.mpr ⟨hlabel, isNumeral_of_mem_sets hsets⟩

theorem isNumeral_of_mem_table {rs : List (Digits × List (List Digits))} (h : w ∈ table rs) :
    ∀ n ∈ rs.flatMap fun r => r.1 :: r.2.flatten, IsNumeral n := by
  obtain ⟨⟨_, h⟩, _⟩ := exists_mem_of_mem_mul h
  obtain ⟨_, _, h⟩ := exists_mem_of_mem_mul h
  cases rs with
  | nil => exact absurd h (Language.notMem_zero _)
  | cons r rs =>
    obtain ⟨⟨_, hr⟩, _, hrs⟩ := exists_mem_of_mem_mul h
    rw [List.flatMap_cons, List.forall_mem_append]
    refine ⟨isNumeral_of_mem_row hr, fun n hn => ?_⟩
    obtain ⟨r, hr, hn⟩ := List.mem_flatMap.mp hn
    obtain ⟨_, hrow⟩ := exists_mem_of_mem_prod hrs r hr
    exact isNumeral_of_mem_row hrow n hn

theorem isSymbol_of_mem_symbols {as : List Symbol} (h : w ∈ symbols as) :
    ∀ a ∈ as, IsSymbol a := by
  cases as with
  | nil => exact fun _ ha => absurd ha List.not_mem_nil
  | cons a as =>
    obtain ⟨⟨_, ha, _⟩, _, has⟩ := exists_mem_of_mem_mul h
    refine List.forall_mem_cons.mpr ⟨ha, fun b hb => ?_⟩
    obtain ⟨_, hb⟩ := exists_mem_of_mem_prod has b hb
    obtain ⟨_, _, hb, _⟩ := exists_mem_of_mem_mul hb
    exact hb

theorem exists_mem_of_mem_line {ts : List Text} {L : Language CodePoint} (h : w ∈ line ts L) :
    ∃ v, v ∈ L := by
  obtain ⟨⟨_, h⟩, _⟩ := exists_mem_of_mem_mul h
  exact (exists_mem_of_mem_mul h).2

/-- **What a text spells is made of numerals and symbols.** -/
theorem wellFormed_of_mem_texts (h : w ∈ texts d) :
    (∀ n ∈ d.numerals, IsNumeral n) ∧ ∀ a ∈ d.symbols, IsSymbol a := by
  obtain ⟨⟨_, h⟩, _⟩ := exists_mem_of_mem_mul h
  obtain ⟨⟨_, h⟩, _, hlast⟩ := exists_mem_of_mem_mul h
  obtain ⟨⟨_, h⟩, _, hstart⟩ := exists_mem_of_mem_mul h
  obtain ⟨⟨_, h⟩, _, htable⟩ := exists_mem_of_mem_mul h
  obtain ⟨⟨_, h⟩, _, hsigma⟩ := exists_mem_of_mem_mul h
  obtain ⟨_, _, hcount⟩ := exists_mem_of_mem_mul h
  obtain ⟨_, hdeclared, _⟩ := exists_mem_of_mem_line hcount
  obtain ⟨_, hsymbols⟩ := exists_mem_of_mem_line hsigma
  obtain ⟨_, hinitial, _⟩ := exists_mem_of_mem_line hstart
  obtain ⟨_, _, haccepting⟩ := exists_mem_of_mem_mul hlast
  refine ⟨?_, isSymbol_of_mem_symbols hsymbols⟩
  rw [Description.numerals, List.forall_mem_cons, List.forall_mem_cons, List.forall_mem_append]
  exact ⟨hdeclared, hinitial, isNumeral_of_mem_numerals haccepting, isNumeral_of_mem_table htable⟩

end Grammar

end FiniteAutomata.Layout
