import FiniteAutomata.Proofs.Text.Numeral
import FiniteAutomata.Text.Table

/-!
# Proofs/Text/Table — what a drawn table says can be read back

A table each of whose cells holds one word (`Table.HasWords`) loses nothing when it is drawn. Its
rule tells the widths of the columns (`Table.rule_inj`), between the bars of a line stand the words
of its row (`Table.lineWords_line`), and where the lines of the rows end is told by how each line
begins (`Text.closedLines_append_inj`). So two such tables under the same headings differ when they
are drawn if their rows do, whatever may follow them (`Table.render?_append_inj`).
-/

namespace FiniteAutomata

namespace Text

/-! ## Words -/

/-- The characters that part words, cells or lines of a table. -/
def partingMarks : Text := " \t\n|"

/-- **The text is one word**: nothing in it parts words, cells or lines. -/
def IsWord (s : Text) : Prop := ∀ c ∈ s, c ∉ partingMarks

instance (s : Text) : Decidable (IsWord s) := List.decidableBAll (· ∉ partingMarks) s

variable {s t : Text}

theorem IsWord.append (hs : IsWord s) (ht : IsWord t) : IsWord (s ++ t) :=
  List.forall_mem_append.mpr ⟨hs, ht⟩

theorem IsWord.notMem (h : IsWord s) {c : CodePoint} (hc : c ∈ partingMarks) : c ∉ s :=
  fun hmem => h c hmem hc

/-- A text without the character is one part. -/
theorem splitAt_of_notMem {sep : CodePoint} (h : sep ∉ s) : splitAt sep s = [s] := by
  induction s with
  | nil => rfl
  | cons c s ih =>
    obtain ⟨hc, hs⟩ := not_or.mp (mt List.mem_cons.mpr h)
    rw [splitAt, if_neg (Ne.symm hc), ih hs]

/-- A word is one line. -/
theorem IsWord.lines_eq (h : IsWord s) : lines s = [s] := splitAt_of_notMem (h.notMem (by decide))

theorem withoutTabs_of_notMem (h : .char '\t' ∉ s) (column : Nat) : withoutTabs column s = s := by
  induction s generalizing column with
  | nil => rfl
  | cons c s ih =>
    obtain ⟨hc, hs⟩ := not_or.mp (mt List.mem_cons.mpr h)
    rw [withoutTabs, if_neg (Ne.symm hc), ih hs]

/-! ## Blanks -/

/-- The characters of a text that are no blanks. -/
def inked (s : Text) : Text := s.filter fun (c : CodePoint) => c != ' '

theorem inked_append (s t : Text) : inked (s ++ t) = inked s ++ inked t := List.filter_append ..

theorem inked_blanks (n : Nat) : inked (blanks n) = [] := by
  rw [inked, List.filter_eq_nil_iff]
  intro c hc
  rw [List.eq_of_mem_replicate hc]
  decide

/-- **A word is what is left of a field without blanks.** -/
theorem IsWord.inked_eq (h : IsWord s) : inked s = s :=
  List.filter_eq_self.mpr fun _ hc => bne_iff_ne.mpr fun he => h.notMem (by decide) (he ▸ hc)

theorem inked_setRight (w : Nat) (s : Text) : inked (setRight w s) = inked s := by
  rw [setRight, inked_append, inked_blanks, List.nil_append]

theorem inked_setCentre (w : Nat) (s : Text) : inked (setCentre w s) = inked s := by
  rw [setCentre]
  split
  rw [inked_append, inked_append, inked_blanks, inked_blanks, List.nil_append, List.append_nil]

/-- A character that is no blank and stands in a text is left without the blanks. -/
theorem mem_inked {c : CodePoint} (hc : c ≠ .char ' ') : c ∈ inked s ↔ c ∈ s := by
  rw [inked, List.mem_filter, bne_iff_ne, and_iff_left hc]

/-! ## Texts between bars -/

/-- **Texts with a bar before, between and after them.** -/
def framed (sep : CodePoint) (parts : List Text) : Text := [sep] ++ [sep].intercalate parts ++ [sep]

/-- The parts of a text between the places where a character stands, without the first and the
last. -/
def innerParts (sep : CodePoint) (s : Text) : List Text := (s.splitOn sep).tail.dropLast

variable {sep : CodePoint} {parts : List Text}

theorem intercalate_concat (h : parts ≠ []) (s : Text) :
    [sep].intercalate (parts ++ [s]) = [sep].intercalate parts ++ [sep] ++ s := by
  induction parts with
  | nil => exact absurd rfl h
  | cons t parts ih =>
    rw [List.cons_append, List.intercalate_cons_of_ne_nil (by simp)]
    by_cases hparts : parts = []
    · simp [hparts]
    · rw [ih hparts, List.intercalate_cons_of_ne_nil hparts]
      simp only [List.append_assoc]

/-- **Texts without a character are told apart again where it stands between them.** -/
theorem intercalate_inj {others : List Text} (hne : parts ≠ []) (hne' : others ≠ [])
    (h : ∀ s ∈ parts, sep ∉ s) (h' : ∀ s ∈ others, sep ∉ s)
    (heq : [sep].intercalate parts = [sep].intercalate others) : parts = others := by
  rw [← List.splitOn_intercalate sep h hne, heq, List.splitOn_intercalate sep h' hne']

/-- A frame puts the bar between the parts and an empty text on each side. -/
theorem framed_eq_intercalate (h : parts ≠ []) :
    framed sep parts = [sep].intercalate ([] :: (parts ++ [[]])) := by
  rw [List.intercalate_cons_of_ne_nil (by simp), intercalate_concat h, framed]
  simp only [List.nil_append, List.append_nil, List.append_assoc]

/-- **What stands between the bars of a frame are its parts.** -/
theorem innerParts_framed (hne : parts ≠ []) (h : ∀ s ∈ parts, sep ∉ s) :
    innerParts sep (framed sep parts) = parts := by
  have hends : ∀ s ∈ [] :: (parts ++ [[]]), sep ∉ s := by
    refine List.forall_mem_cons.mpr ⟨List.not_mem_nil, List.forall_mem_append.mpr ⟨h, ?_⟩⟩
    exact List.forall_mem_singleton.mpr List.not_mem_nil
  rw [innerParts, framed_eq_intercalate hne,
    List.splitOn_intercalate sep hends (List.cons_ne_nil _ _), List.tail_cons]
  exact List.dropLast_concat

theorem notMem_intercalate {c : CodePoint} (hsep : c ≠ sep) (h : ∀ s ∈ parts, c ∉ s) :
    c ∉ [sep].intercalate parts := by
  induction parts with
  | nil => exact List.not_mem_nil
  | cons s parts ih =>
    obtain ⟨hs, h⟩ := List.forall_mem_cons.mp h
    by_cases hparts : parts = []
    · rw [hparts, List.intercalate_singleton]
      exact hs
    · rw [List.intercalate_cons_of_ne_nil hparts, List.mem_append, List.mem_append,
        List.mem_singleton]
      exact not_or.mpr ⟨not_or.mpr ⟨hs, hsep⟩, ih h⟩

/-- A frame begins with its bar. -/
theorem head?_framed : (framed sep parts).head? = some sep := rfl

theorem notMem_framed {c : CodePoint} (hsep : c ≠ sep) (h : ∀ s ∈ parts, c ∉ s) :
    c ∉ framed sep parts := by
  rw [framed, List.mem_append, List.mem_append, List.mem_singleton]
  exact not_or.mpr ⟨not_or.mpr ⟨hsep, notMem_intercalate hsep h⟩, hsep⟩

/-! ## Lines -/

/-- **Lines with a line feed after each.** -/
def closedLines (l : List Text) : Text := l.flatMap fun s => s ++ "\n"

theorem closedLines_cons (s : Text) (l : List Text) :
    closedLines (s :: l) = s ++ .char '\n' :: closedLines l := by
  rw [closedLines, List.flatMap_cons, List.append_assoc]
  rfl

theorem closedLines_append (l m : List Text) :
    closedLines (l ++ m) = closedLines l ++ closedLines m := List.flatMap_append

/-- Of lines with line feeds between them, all but the last have one after them. -/
theorem intercalate_concat_eq_closedLines (l : List Text) (s : Text) :
    List.intercalate "\n" (l ++ [s]) = closedLines l ++ s := by
  induction l with
  | nil => simp [closedLines]
  | cons t l ih =>
    rw [List.cons_append, List.intercalate_cons_of_ne_nil (by simp), ih, closedLines_cons]
    simp [Text.ofString]

/-- The text is one line, and begins with the character. -/
structure IsLineFrom (c : CodePoint) (s : Text) : Prop where
  head?_eq : s.head? = some c
  notMem : .char '\n' ∉ s

/-- **Lines that all begin with one character are told from what goes on with another**, and from
each other. -/
theorem closedLines_append_inj {c : CodePoint} {l m : List Text} (hl : ∀ s ∈ l, IsLineFrom c s)
    (hm : ∀ s ∈ m, IsLineFrom c s) {r r' : Text} (hr : r.head? ≠ some c)
    (hr' : r'.head? ≠ some c) (h : closedLines l ++ r = closedLines m ++ r') :
    l = m ∧ r = r' := by
  have hhead : ∀ {s : Text} {k : List Text} {x : Text}, IsLineFrom c s →
      (closedLines (s :: k) ++ x).head? = some c := fun hs => by
    rw [closedLines_cons, List.append_assoc, List.head?_append, hs.head?_eq, Option.some_or]
  -- Where one list is over, what follows begins otherwise than a line of the other list does.
  induction l generalizing m with
  | nil =>
    cases m with
    | nil => exact ⟨rfl, h⟩
    | cons t m => exact absurd (congrArg List.head? h ▸ hhead (hm t List.mem_cons_self)) hr
  | cons s l ih =>
    obtain ⟨hs, hl⟩ := List.forall_mem_cons.mp hl
    cases m with
    | nil => exact absurd (congrArg List.head? h ▸ hhead hs) hr'
    | cons t m =>
      obtain ⟨ht, hm⟩ := List.forall_mem_cons.mp hm
      rw [closedLines_cons, closedLines_cons, List.append_assoc, List.append_assoc,
        List.cons_append, List.cons_append] at h
      obtain ⟨hst, h⟩ := append_cons_inj hs.notMem ht.notMem h
      obtain ⟨rfl, hrest⟩ := ih hl hm h
      exact ⟨congrArg (· :: l) hst, hrest⟩

end Text

namespace Table

open Text

/-! ## Rules -/

/-- The dashes of a rule over a column. -/
def dashes (w : Nat) : Text := List.replicate (w + 2) '-'

theorem rule_eq_framed (ws : List Nat) : rule ws = framed '+' (ws.map dashes) := rfl

/-- **The lengths of its dashes tell the widths that a rule was drawn for.** -/
theorem rule_inj {ws vs : List Nat} (hws : ws ≠ []) (hvs : vs ≠ []) (h : rule ws = rule vs) :
    ws = vs := by
  have hlengths : ∀ {us : List Nat}, us ≠ [] →
      (innerParts '+' (rule us)).map (fun dashes => dashes.length - 2) = us := fun {us} hus => by
    have hdashes : ∀ s ∈ us.map dashes, .char '+' ∉ s :=
      List.forall_mem_map.mpr fun w _ hmem =>
        absurd (List.eq_of_mem_replicate hmem) (by decide)
    rw [rule_eq_framed, innerParts_framed (mt List.map_eq_nil_iff.mp hus) hdashes, List.map_map]
    refine List.map_id'' (fun w => ?_) us
    simp [dashes]
  rw [← hlengths hws, h, hlengths hvs]

theorem notMem_rule {c : CodePoint} (hc : c ≠ .char '+' ∧ c ≠ .char '-') (ws : List Nat) :
    c ∉ rule ws :=
  notMem_framed hc.1 (List.forall_mem_map.mpr fun _ _ hmem => hc.2 (List.eq_of_mem_replicate hmem))

theorem head?_rule (ws : List Nat) : (rule ws).head? = some (.char '+') := head?_framed

/-! ## Lines of words -/

variable {rightFirst : Bool} {ws : List Nat} {cells : List Text}

/-- The fields of a line, each with a blank on both sides. -/
def fields (rightFirst : Bool) (ws : List Nat) (cells : List Text) : List Text :=
  (ws.zip cells).mapIdx fun k p =>
    (" " : Text) ++ (if rightFirst && k == 0 then setRight p.1 p.2 else setCentre p.1 p.2) ++ " "

theorem line_eq_framed (rightFirst : Bool) (ws : List Nat) (cells : List Text) :
    line rightFirst ws cells = framed '|' (fields rightFirst ws cells) := rfl

/-- Fields hold the texts of the cells and blanks. -/
theorem map_inked_fields (h : ws.length = cells.length) :
    (fields rightFirst ws cells).map inked = cells.map inked := by
  have hblank : inked " " = [] := rfl
  refine List.ext_getElem (by simp [fields, h]) fun k _ _ => ?_
  simp only [fields, List.getElem_map, List.getElem_mapIdx, List.getElem_zip, inked_append, hblank,
    List.nil_append, List.append_nil]
  split
  · exact inked_setRight _ _
  · exact inked_setCentre _ _

/-- A character that is no blank stands in a field only if it stands in a cell. -/
theorem notMem_field (hlen : ws.length = cells.length) {c : CodePoint} (hc : c ≠ .char ' ')
    (h : ∀ s ∈ cells, c ∉ s) : ∀ s ∈ fields rightFirst ws cells, c ∉ s := by
  intro s hs hmem
  have hinked : inked s ∈ cells.map inked := map_inked_fields hlen ▸ List.mem_map_of_mem hs
  obtain ⟨t, ht, heq⟩ := List.mem_map.mp hinked
  exact h t ht ((mem_inked hc).mp (heq ▸ (mem_inked hc).mpr hmem))

/-- The texts between the bars of a line, without blanks. -/
def lineWords (s : Text) : List Text := (innerParts '|' s).map inked

/-- **Between the bars of a line stand the words of its row.** -/
theorem lineWords_line (hlen : ws.length = cells.length) (hne : cells ≠ [])
    (h : ∀ s ∈ cells, IsWord s) : lineWords (line rightFirst ws cells) = cells := by
  have hfields : fields rightFirst ws cells ≠ [] := fun hnil =>
    hne (List.map_eq_nil_iff.mp ((map_inked_fields hlen).symm.trans (by rw [hnil]; rfl)))
  have hbar : ∀ s ∈ fields rightFirst ws cells, CodePoint.char '|' ∉ s :=
    notMem_field hlen (by decide) fun s hs => (h s hs).notMem (by decide)
  calc lineWords (line rightFirst ws cells)
      = (fields rightFirst ws cells).map inked := by
        rw [lineWords, line_eq_framed, innerParts_framed hfields hbar]
    _ = cells.map inked := map_inked_fields hlen
    _ = cells := (List.map_congr_left fun s hs => (h s hs).inked_eq).trans (List.map_id cells)

theorem isLineFrom_line (hlen : ws.length = cells.length) (h : ∀ s ∈ cells, IsWord s) :
    IsLineFrom '|' (line rightFirst ws cells) where
  head?_eq := head?_framed
  notMem := notMem_framed (by decide)
    (notMem_field hlen (by decide) fun s hs => (h s hs).notMem (by decide))

/-- A row of words takes one line. -/
theorem rowLines_eq (hne : cells ≠ []) (h : ∀ s ∈ cells, IsWord s) :
    rowLines rightFirst ws cells = [line rightFirst ws cells] := by
  have hlines : ∀ s ∈ cells, lines s = [s] := fun s hs => (h s hs).lines_eq
  have hone : cells.map (fun s => (lines s).length) = List.replicate cells.length 1 :=
    List.eq_replicate_iff.mpr ⟨List.length_map _, List.forall_mem_map.mpr fun s hs => by
      rw [hlines s hs, List.length_singleton]⟩
  have hheight : (cells.map fun s => (lines s).length).foldl max 0 = 1 := by
    obtain ⟨n, hn⟩ := Nat.exists_eq_add_one_of_ne_zero (mt List.length_eq_zero_iff.mp hne)
    rw [hone, hn, List.replicate_succ, List.foldl_cons]
    exact List.foldlRecOn (motive := (· = 1)) _ _ rfl fun m hm k hk => by
      rw [hm, List.eq_of_mem_replicate hk, Nat.max_self]
  have hfirst : cells.map (fun s => ((lines s)[0]?).getD []) = cells :=
    (List.map_congr_left fun s hs => by rw [hlines s hs]; rfl).trans (List.map_id cells)
  rw [rowLines, hheight, List.range_one, List.map_singleton, hfirst]

/-! ## Tables of words -/

/-- **A table of words**: each row has a cell for each column, and each cell holds one word. -/
structure HasWords (t : Table) : Prop where
  columns_ne_nil : t.columns ≠ []
  length_eq : ∀ row ∈ t.rows, row.length = t.columns.length
  isWord : ∀ row ∈ t.rows, ∀ s ∈ row, IsWord s

namespace HasWords

variable {t u : Table}

theorem row_ne_nil (h : t.HasWords) : ∀ row ∈ t.rows, row ≠ [] := by
  rintro row hrow rfl
  exact h.columns_ne_nil (List.length_eq_zero_iff.mp (h.length_eq [] hrow).symm)

/-- Words have no tabs. -/
theorem prepared_eq (h : t.HasWords) : t.prepared = t := by
  have hrows : (t.rows.map fun row => row.map (withoutTabs 0)) = t.rows := by
    refine (List.map_congr_left fun row hrow => ?_).trans (List.map_id t.rows)
    refine (List.map_congr_left fun s hs => ?_).trans (List.map_id row)
    exact withoutTabs_of_notMem ((h.isWord row hrow s hs).notMem (by decide)) 0
  rw [prepared, hrows]

/-- There is a width for each column. -/
theorem length_widths (h : t.HasWords) : t.widths.length = t.columns.length := by
  refine List.foldlRecOn (motive := fun ws : List Nat => ws.length = t.columns.length) _ _
    (List.length_map _) fun ws hws row hrow => ?_
  rw [List.length_zipWith, hws, h.length_eq row hrow, Nat.min_self]

theorem widths_ne_nil (h : t.HasWords) : t.widths ≠ [] := fun hnil =>
  h.columns_ne_nil (List.length_eq_zero_iff.mp (h.length_widths ▸ hnil ▸ rfl))

/-- **What is drawn**: a rule, the lines below it, one line for each row, and another rule. -/
theorem eq_of_render? (h : t.HasWords) {s : Text} (hs : t.render? = some s) :
    s = rule t.widths ++ .char '\n' ::
      (closedLines [t.headingLine t.widths, rule t.widths] ++
        (closedLines (t.rows.map (line t.rightFirst t.widths)) ++ rule t.widths)) := by
  have hrows : t.rows.flatMap (rowLines t.rightFirst t.widths) =
      t.rows.map (line t.rightFirst t.widths) := by
    rw [List.map_eq_flatMap, List.flatMap_def, List.flatMap_def]
    exact congrArg _ (List.map_congr_left fun row hrow =>
      rowLines_eq (h.row_ne_nil row hrow) (h.isWord row hrow))
  rw [render?, h.prepared_eq] at hs
  split at hs
  · rw [← Option.some.inj hs, intercalate_concat_eq_closedLines, closedLines_append, hrows,
      closedLines_cons, List.append_assoc, List.append_assoc]
    rfl
  · nomatch hs

section

variable {ws : List Nat} (h : t.HasWords) (hws : ws.length = t.columns.length)

include h hws

theorem isLineFrom_of_mem : ∀ s ∈ t.rows.map (line rightFirst ws), IsLineFrom '|' s :=
  List.forall_mem_map.mpr fun row hrow =>
    isLineFrom_line (hws.trans (h.length_eq row hrow).symm) (h.isWord row hrow)

/-- **The lines of the rows tell the rows.** -/
theorem map_lineWords : (t.rows.map (line rightFirst ws)).map lineWords = t.rows := by
  rw [List.map_map]
  refine (List.map_congr_left fun row hrow => ?_).trans (List.map_id t.rows)
  exact lineWords_line (hws.trans (h.length_eq row hrow).symm) (h.row_ne_nil row hrow)
    (h.isWord row hrow)

end

end HasWords

/-- **Drawn tables of words tell their rows**, and where they end, whatever follows them. -/
theorem render?_append_inj {t u : Table} (ht : t.HasWords) (hu : u.HasWords)
    (hcolumns : t.columns = u.columns) (hright : t.rightFirst = u.rightFirst) {x y : Text}
    (hx : t.render? = some x) (hy : u.render? = some y) {r r' : Text}
    (h : x ++ r = y ++ r') : t.rows = u.rows ∧ r = r' := by
  have hfeed : CodePoint.char '\n' ≠ '+' ∧ CodePoint.char '\n' ≠ '-' := by decide
  rw [ht.eq_of_render? hx, hu.eq_of_render? hy] at h
  simp only [List.append_assoc, List.cons_append] at h
  -- The first rule tells the widths; these and the headings tell the two lines below it.
  obtain ⟨hrule, h⟩ := append_cons_inj (notMem_rule hfeed _) (notMem_rule hfeed _) h
  have hwidths : t.widths = u.widths :=
    rule_inj ht.widths_ne_nil hu.widths_ne_nil hrule
  have hheadings : t.headingLine u.widths = u.headingLine u.widths := by
    rw [headingLine, headingLine, hcolumns, hright]
  rw [hwidths, hheadings, hright] at h
  -- Lines of rows begin with a bar, and the last rule does not.
  have hlast : ∀ k : Text, (rule u.widths ++ k).head? ≠ some (.char '|') := fun k => by
    rw [List.head?_append, head?_rule, Option.some_or]
    decide
  have hlength : u.widths.length = t.columns.length := hwidths ▸ ht.length_widths
  obtain ⟨hlines, h⟩ := closedLines_append_inj (ht.isLineFrom_of_mem hlength)
    (hu.isLineFrom_of_mem hu.length_widths) (hlast r) (hlast r') (List.append_cancel_left h)
  refine ⟨?_, List.append_cancel_left h⟩
  rw [← ht.map_lineWords hlength, hlines, hu.map_lineWords hu.length_widths]

end Table

end FiniteAutomata
