/-
# The columns of a table stand below each other

Each column of a table is as wide as its longest text, so every text fits into its
column, and lines that are made of fields as wide as the columns, with a separator
of three characters between them, agree on where each column starts and where
each separator stands (`Report.drop_columnStart`). The rule is such a line, and so
is every line of texts, until the blanks at its end are left out.

Only blanks are left out. So every bar stays, and every text up to its last
character that is not blank, each at the offset where it was
(`isPrefix_drop_rdropWhile`); and a line that holds no line feed is one line to a
reader, even if a carriage return stood at its end.

All this is so of the tables that there are. A single text of more than 65535
characters is enough for there to be none (`Sample.render?_scrolls`).

Key definitions: `Report.columnStart`, `Report.columnEnd`, `Report.IsRule`,
`Report.IsLaidOut`, `Report.IsTable`, `Report.IsTabulated`.
Key theorems: `Report.isLaidOut_lineOf`, `Report.isRule_tableRule`,
`Report.exists_isTabulated`.
-/
import Mathlib.Algebra.GroupWithZero.Nat
import Mathlib.Data.List.DropRight
import DocumentSql.Proofs.OrderedMap
import DocumentSql.Proofs.Report.Widths
import DocumentSql.Proofs.Text.Lines
import DocumentSql.Report.Format

namespace DocumentSql

/-! ### Ends that are left out -/

section Trimming

variable {α : Type*} {p : α → Bool} {xs ys : List α}

theorem isPrefix_rdropWhile (h : xs <+: ys) : xs.rdropWhile p <+: ys.rdropWhile p := by
  induction ys using List.reverseRecOn with
  | nil =>
    obtain rfl := List.prefix_nil.mp h
    exact List.prefix_rfl
  | append_singleton ys y ih =>
    rcases List.prefix_concat_iff.mp h with rfl | h
    · exact List.prefix_rfl
    · rw [List.rdropWhile_concat]
      split
      · exact ih h
      · exact (ih h).trans ((List.rdropWhile_prefix p ys).trans (List.prefix_append ys [y]))

/-- What stands at an offset is still there when the end of the list is left out, as far as it does
not end that way itself. -/
theorem isPrefix_drop_rdropWhile {n : Nat} (h : xs <+: ys.drop n) :
    xs.rdropWhile p <+: (ys.rdropWhile p).drop n := by
  by_cases hxs : xs.rdropWhile p = []
  · rw [hxs]
    exact List.nil_prefix
  have hstays : xs.rdropWhile p <+: ys.drop n := (List.rdropWhile_prefix p xs).trans h
  have hlength : (ys.take n).length = n := by
    have hrest := List.length_pos_of_ne_nil fun he => hxs (List.prefix_nil.mp (he ▸ hstays))
    rw [List.length_drop] at hrest
    rw [List.length_take]
    omega
  have hfront : ys.take n ++ xs.rdropWhile p <+: ys := by
    conv_rhs => rw [← List.take_append_drop n ys]
    exact (List.prefix_append_right_inj _).mpr hstays
  -- the front ends in an element that stays, so nothing of it is left out
  have hkept : (ys.take n ++ xs.rdropWhile p).rdropWhile p = ys.take n ++ xs.rdropWhile p := by
    rw [List.rdropWhile_eq_self_iff]
    intro hne
    rw [List.getLast_append_of_ne_nil hne hxs]
    exact List.rdropWhile_last_not p xs hxs
  have hprefix := isPrefix_rdropWhile (p := p) hfront
  rw [hkept] at hprefix
  obtain ⟨rest, hrest⟩ := hprefix
  rw [← hrest, List.append_assoc, List.drop_left' hlength]
  exact List.prefix_append _ _

end Trimming

namespace Report

/-! ### Lines of fields -/

/-- The offset at which column `k` starts in a line: behind the columns before it and a separator
of three characters for each of these. -/
def columnStart (widths : List Nat) (k : Nat) : Nat := (widths.take k).sum + 3 * k

/-- The offset at which column `k` ends, and the separator behind it starts. -/
def columnEnd (widths : List Nat) (k : Nat) : Nat := (widths.take (k + 1)).sum + 3 * k

theorem columnStart_cons (w : Nat) (widths : List Nat) (k : Nat) :
    columnStart (w :: widths) (k + 1) = w + 3 + columnStart widths k := by
  simp only [columnStart, List.take_succ_cons, List.sum_cons]
  omega

theorem columnEnd_cons (w : Nat) (widths : List Nat) (k : Nat) :
    columnEnd (w :: widths) (k + 1) = w + 3 + columnEnd widths k := by
  simp only [columnEnd, List.take_succ_cons, List.sum_cons]
  omega

theorem columnEnd_eq {widths : List Nat} {k w : Nat} (h : widths[k]? = some w) :
    columnEnd widths k = columnStart widths k + w := by
  rw [columnEnd, columnStart, List.take_add_one, h, Option.toList_some, List.sum_append,
    List.sum_singleton]
  omega

section Fields

variable {separator : List Char}

/-- A line of fields goes on from the start of a column with the field of that column. -/
theorem drop_columnStart (hsep : separator.length = 3) : ∀ {fields : List (List Char)} {k : Nat},
    k < fields.length → (separator.intercalate fields).drop
      (columnStart (fields.map List.length) k) = separator.intercalate (fields.drop k)
  | _, 0, _ => rfl
  | [_], k + 1, h => by
    rw [List.length_singleton] at h
    omega
  | field :: next :: fields, k + 1, h => by
    have ih := drop_columnStart hsep (Nat.lt_of_succ_lt_succ h)
    have hfront : (field ++ separator).length = field.length + 3 := by
      rw [List.length_append, hsep]
    rw [List.intercalate_cons_cons, List.map_cons, columnStart_cons, ← List.drop_drop,
      List.drop_left' hfront, ih, List.drop_succ_cons]

theorem length_intercalate (hsep : separator.length = 3) : ∀ fields : List (List Char),
    (separator.intercalate fields).length =
      (fields.map List.length).sum + 3 * (fields.length - 1)
  | [] => rfl
  | [field] => by simp
  | field :: next :: fields => by
    have ih := length_intercalate hsep (next :: fields)
    rw [List.intercalate_cons_cons, List.length_append, List.length_append, ih, hsep]
    simp only [List.map_cons, List.sum_cons, List.length_cons]
    omega

variable {fields : List (List Char)} {widths : List Nat}

/-- The field of a column stands where the column starts. -/
theorem field_isPrefix (hsep : separator.length = 3) (hwidths : fields.map List.length = widths)
    {k : Nat} {field : List Char} (hfield : fields[k]? = some field) :
    field <+: (separator.intercalate fields).drop (columnStart widths k) := by
  obtain ⟨hk, rfl⟩ := List.getElem?_eq_some_iff.mp hfield
  rw [← hwidths, drop_columnStart hsep hk, List.drop_eq_getElem_cons hk]
  cases fields.drop (k + 1) with
  | nil => simp only [List.intercalate_singleton, List.prefix_rfl]
  | cons next rest =>
    rw [List.intercalate_cons_cons, List.append_assoc]
    exact List.prefix_append _ _

/-- The separator stands where a column ends, if it is not the last one. -/
theorem separator_isPrefix (hsep : separator.length = 3) (hwidths : fields.map List.length = widths)
    {k : Nat} (hk : k + 1 < widths.length) :
    separator <+: (separator.intercalate fields).drop (columnEnd widths k) := by
  have hnext : k + 1 < fields.length := by rwa [← hwidths, List.length_map] at hk
  have hthis : k < fields.length := Nat.lt_of_succ_lt hnext
  have hwidth : (fields.map List.length)[k]? = some fields[k].length := by
    rw [List.getElem?_map, List.getElem?_eq_getElem hthis, Option.map_some]
  rw [← hwidths, columnEnd_eq hwidth, ← List.drop_drop, drop_columnStart hsep hthis,
    List.drop_eq_getElem_cons hthis, List.drop_eq_getElem_cons hnext, List.intercalate_cons_cons,
    List.append_assoc, List.drop_left' rfl]
  exact List.prefix_append _ _

end Fields

/-! ### The rule -/

/-- A rule below columns of these widths. -/
structure IsRule (widths : List Nat) (rule : List Char) : Prop where
  length_eq : rule.length = widths.sum + 3 * (widths.length - 1)
  /-- Below a column there are dashes, from where it starts and as many as it is wide. -/
  dashes : ∀ k w, widths[k]? = some w → List.replicate w '-' <+: rule.drop (columnStart widths k)
  /-- Crossings stand where columns end that others follow, and nowhere else. -/
  crossing_iff : ∀ offset, ['-', '+', '-'] <+: rule.drop offset ↔
    ∃ k, k + 1 < widths.length ∧ offset = columnEnd widths k

theorem tableRule_cons_cons (w next : Nat) (widths : List Nat) :
    tableRule (w :: next :: widths) =
      List.replicate w '-' ++ ('-' :: '+' :: '-' :: tableRule (next :: widths)) := by
  simp [tableRule, List.intercalate_cons_cons]

/-- The pluses of a rule are those of the crossings. -/
theorem exists_columnEnd_of_plus : ∀ {widths : List Nat} {offset : Nat},
    (tableRule widths)[offset]? = some '+' →
      ∃ k, k + 1 < widths.length ∧ offset = columnEnd widths k + 1
  | [], _, h => by simp [tableRule] at h
  | [w], _, h => by
    have hmem := List.mem_of_getElem? h
    simp [tableRule] at hmem
  | w :: next :: widths, offset, h => by
    rw [tableRule_cons_cons] at h
    rcases Nat.lt_or_ge offset w with hlt | hge
    · rw [List.getElem?_append_left (by simpa using hlt)] at h
      have hmem := List.mem_of_getElem? h
      simp at hmem
    · rw [List.getElem?_append_right (by simpa using hge), List.length_replicate] at h
      obtain ⟨behind, rfl⟩ := Nat.exists_eq_add_of_le hge
      rw [Nat.add_sub_cancel_left] at h
      match behind with
      | 0 | 2 => simp at h
      | 1 => exact ⟨0, by simp, by simp [columnEnd]⟩
      | behind + 3 =>
        have hbehind : (tableRule (next :: widths))[behind]? = some '+' := h
        obtain ⟨k, hk, rfl⟩ := exists_columnEnd_of_plus hbehind
        exact ⟨k + 1, Nat.succ_lt_succ hk, by rw [columnEnd_cons]; omega⟩

theorem isRule_tableRule (widths : List Nat) : IsRule widths (tableRule widths) := by
  have hwidths : (widths.map fun w => List.replicate w '-').map List.length = widths := by
    simp [Function.comp_def]
  refine ⟨?_, fun k w hw => ?_, fun offset => ⟨fun h => ?_, ?_⟩⟩
  · rw [tableRule, length_intercalate rfl, hwidths, List.length_map]
  · exact field_isPrefix rfl hwidths (by rw [List.getElem?_map, hw, Option.map_some])
  · obtain ⟨rest, hrest⟩ := h
    have hplus : (tableRule widths)[offset + 1]? = some '+' := by
      rw [← List.getElem?_drop, ← hrest]
      rfl
    obtain ⟨k, hk, he⟩ := exists_columnEnd_of_plus hplus
    exact ⟨k, hk, Nat.succ_injective he⟩
  · rintro ⟨k, hk, rfl⟩
    exact separator_isPrefix rfl hwidths hk

/-! ### Lines of texts -/

/-- A line with these texts in columns of these widths. -/
structure IsLaidOut (widths : List Nat) (texts : List String) (line : List Char) : Prop where
  length_eq : texts.length = widths.length
  /-- It is the padded line without the blanks at its end. -/
  line_eq : line = (paddedLine widths texts).rdropWhile Text.isBlank
  /-- With these blanks, each text stands where its column starts, and spaces fill the column. -/
  padded : ∀ k width text, widths[k]? = some width → texts[k]? = some text →
    text.toList.rightpad width ' ' <+: (paddedLine widths texts).drop (columnStart widths k)
  /-- The separators stand where columns end that others follow. -/
  separator : ∀ k, k + 1 < widths.length →
    [' ', '|', ' '] <+: (paddedLine widths texts).drop (columnEnd widths k)
  /-- Without them, each text still stands there, up to its last character that is not blank. -/
  text : ∀ k text, texts[k]? = some text →
    text.toList.rdropWhile Text.isBlank <+: line.drop (columnStart widths k)
  /-- Without them, every bar is still there. -/
  bar : ∀ k, k + 1 < widths.length → [' ', '|'] <+: line.drop (columnEnd widths k)

theorem lineOf_eq (widths : List Nat) (texts : List String) :
    lineOf widths texts = (paddedLine widths texts).rdropWhile Text.isBlank := rfl

/-- Texts that fit into their columns fill them when they are padded. -/
theorem map_length_paddedFields {widths : List Nat} {texts : List String}
    (h : List.Forall₂ (fun text width => text.length ≤ width) texts widths) :
    (paddedFields widths texts).map List.length = widths := by
  induction h with
  | nil => rfl
  | cons hfits _ ih =>
    rw [paddedFields] at ih ⊢
    rw [List.zipWith_cons_cons, List.map_cons, ih, List.length_rightpad, String.length_toList,
      Nat.max_eq_left hfits]

theorem isLaidOut_lineOf {widths : List Nat} {texts : List String}
    (h : List.Forall₂ (fun text width => text.length ≤ width) texts widths) :
    IsLaidOut widths texts (lineOf widths texts) := by
  have hwidths := map_length_paddedFields h
  have hpadded : ∀ k width text, widths[k]? = some width → texts[k]? = some text →
      text.toList.rightpad width ' ' <+: (paddedLine widths texts).drop (columnStart widths k) := by
    intro k width text hwidth htext
    exact field_isPrefix rfl hwidths (by rw [paddedFields, List.getElem?_zipWith, hwidth, htext])
  have hseparator : ∀ k, k + 1 < widths.length →
      [' ', '|', ' '] <+: (paddedLine widths texts).drop (columnEnd widths k) :=
    fun k hk => separator_isPrefix rfl hwidths hk
  refine ⟨h.length_eq, lineOf_eq widths texts, hpadded, hseparator, ?_, ?_⟩
  · intro k text htext
    obtain ⟨hk, -⟩ := List.getElem?_eq_some_iff.mp htext
    rw [h.length_eq] at hk
    apply isPrefix_drop_rdropWhile
    exact (List.prefix_append _ _).trans
      (hpadded k widths[k] text (List.getElem?_eq_getElem hk) htext)
  · intro k hk
    have hbar : [' ', '|'].rdropWhile Text.isBlank = [' ', '|'] := by decide
    rw [← hbar]
    apply isPrefix_drop_rdropWhile
    exact (List.prefix_append [' ', '|'] [' ']).trans (hseparator k hk)

/-! ### Lines to a reader -/

theorem notMem_intercalate {x : Char} {separator : List Char} (hsep : x ∉ separator) :
    ∀ {fields : List (List Char)}, (∀ field ∈ fields, x ∉ field) →
      x ∉ separator.intercalate fields
  | [], _ => List.not_mem_nil
  | [field], h => by
    rw [List.intercalate_singleton]
    exact h field List.mem_cons_self
  | field :: next :: fields, h => by
    rw [List.forall_mem_cons] at h
    rw [List.intercalate_cons_cons, List.mem_append, List.mem_append, not_or, not_or]
    exact ⟨⟨h.1, hsep⟩, notMem_intercalate hsep h.2⟩

/-- A line of texts without line feeds is one to a reader too. -/
theorem isLine_lineOf (widths : List Nat) {texts : List String}
    (h : ∀ text ∈ texts, '\n' ∉ text.toList) : Text.IsLine (lineOf widths texts) := by
  have hpadded : '\n' ∉ paddedLine widths texts := by
    apply notMem_intercalate (by decide)
    intro field hfield
    rw [paddedFields] at hfield
    obtain ⟨k, hk, rfl⟩ := List.getElem_of_mem hfield
    rw [List.getElem_zipWith, List.rightpad, List.mem_append, not_or]
    refine ⟨h _ (List.getElem_mem _), fun hspace => ?_⟩
    exact absurd (List.eq_of_mem_replicate hspace) (by decide)
  rw [lineOf_eq]
  refine ⟨fun hmem => hpadded ((List.rdropWhile_prefix _ _).subset hmem), fun hlast => ?_⟩
  -- a carriage return is a blank
  have hne : (paddedLine widths texts).rdropWhile Text.isBlank ≠ [] := by
    intro he
    rw [he] at hlast
    cases hlast
  have hkept := List.rdropWhile_last_not Text.isBlank (paddedLine widths texts) hne
  rw [List.getLast_of_getLast?_eq_some hlast] at hkept
  exact hkept (by decide)

theorem notMem_tableRule {x : Char} (hdash : x ≠ '-') (hplus : x ≠ '+') (widths : List Nat) :
    x ∉ tableRule widths := by
  apply notMem_intercalate (by simp [hdash, hplus])
  intro field hfield
  obtain ⟨w, -, rfl⟩ := List.mem_map.mp hfield
  exact fun hmem => hdash (List.eq_of_mem_replicate hmem)

theorem isLine_tableRule (widths : List Nat) : Text.IsLine (tableRule widths) where
  notMem := notMem_tableRule (by decide) (by decide) widths
  getLast?_ne hlast :=
    notMem_tableRule (by decide) (by decide) widths (List.mem_of_getLast? hlast)

theorem isLine_footer (rowCount milliseconds : Nat) :
    Text.IsLine (footer rowCount milliseconds).toList := by
  have hdigits : ∀ n, '\n' ∉ (Decimal.natText n).toList := by
    intro n hmem
    rw [Decimal.natText, String.toList_ofList] at hmem
    exact absurd (Decimal.isDigit_of_mem_digits hmem) (by decide)
  constructor
  · simp only [footer, String.toList_append, List.mem_append, not_or]
    exact ⟨⟨⟨⟨by decide, hdigits rowCount⟩, by decide⟩, hdigits milliseconds⟩, by decide⟩
  · have hend : " ms)".toList.getLast? = some ')' := by decide
    rw [footer, String.toList_append, List.getLast?_append, hend, Option.some_or]
    decide

/-- The texts of a row hold no line feed if those of its values hold none. -/
theorem notMem_tableCell {row : Row} (h : ∀ v ∈ row.values, '\n' ∉ v.display.toList)
    (column : String) : '\n' ∉ (tableCell row column).toList := by
  unfold tableCell
  split
  · rename_i v hv
    exact h v ((row.mem_values_iff v).mpr ⟨column, hv⟩)
  · exact List.not_mem_nil

/-- The text of a table ends each of its lines with a line feed. -/
theorem toList_table (rows : List Row) (rowCount milliseconds : Nat) :
    (String.ofList ((linesOf rows).flatMap (· ++ ['\n'])) ++ footer rowCount milliseconds ++
      "\n").toList =
      (linesOf rows ++ [(footer rowCount milliseconds).toList]).flatMap (· ++ ['\n']) := by
  rw [String.toList_append, String.toList_append, String.toList_ofList, List.flatMap_append,
    List.flatMap_singleton, List.append_assoc]
  rfl

theorem isLine_of_mem_linesOf {rows : List Row}
    (hnames : ∀ name ∈ headers rows, '\n' ∉ name.toList)
    (hcells : ∀ row ∈ rows, ∀ v ∈ row.values, '\n' ∉ v.display.toList) :
    ∀ line ∈ linesOf rows, Text.IsLine line := by
  rw [linesOf, List.forall_mem_cons, List.forall_mem_cons, List.forall_mem_map]
  refine ⟨isLine_lineOf _ hnames, isLine_tableRule _, fun row hrow => ?_⟩
  apply isLine_lineOf
  rw [List.forall_mem_map]
  exact fun column _ => notMem_tableCell (hcells row hrow) column

/-! ### Tables -/

/-- A text that is a table of the rows of an answer, in columns of these names and widths. -/
structure IsTable (a : Answer) (names : List String) (widths : List Nat) (header rule : List Char)
    (body : List (List Char)) (text : List Char) : Prop where
  /-- A reader finds the header, the rule, one line for each row and the footer. -/
  lines_eq : Text.lines text =
    header :: rule :: body ++ [(footer a.rowCount a.milliseconds).toList]
  /-- Each of these is ended by a line feed. -/
  text_eq : text =
    (header :: rule :: body ++ [(footer a.rowCount a.milliseconds).toList]).flatMap (· ++ ['\n'])
  isLaidOut_header : IsLaidOut widths names header
  isRule : IsRule widths rule
  isLaidOut_body : List.Forall₂ (fun row line =>
    IsLaidOut widths (names.map (tableCell row)) line) a.rows body

/-- What becomes of an answer as a table, in columns of these names and widths. -/
structure IsTabulated (a : Answer) (names : List String) (widths : List Nat) : Prop where
  areWidths : AreWidths a.rows names widths
  /-- If no column is too wide there is a table. -/
  exists_isTable : (∀ w ∈ widths, w ≤ widthLimit) → ∃ text, render? .table a = some text ∧
    ∃ header rule body, IsTable a names widths header rule body text.toList
  /-- If one is there is none. -/
  render?_eq_none : (∃ w ∈ widths, widthLimit < w) → render? .table a = none

/-- The text of the lines of a table is a table. -/
theorem isTable_linesOf {a : Answer} (hnames : ∀ name ∈ headers a.rows, '\n' ∉ name.toList)
    (hcells : ∀ row ∈ a.rows, ∀ v ∈ row.values, '\n' ∉ v.display.toList) :
    IsTable a (headers a.rows) (columnWidths (tableCells a.rows))
      (lineOf (columnWidths (tableCells a.rows)) (headers a.rows))
      (tableRule (columnWidths (tableCells a.rows)))
      (a.rows.map fun row =>
        lineOf (columnWidths (tableCells a.rows)) ((headers a.rows).map (tableCell row)))
      ((linesOf a.rows ++ [(footer a.rowCount a.milliseconds).toList]).flatMap (· ++ ['\n'])) := by
  have hwidths := areWidths_columnWidths a.rows
  have hlines : ∀ line ∈ linesOf a.rows ++ [(footer a.rowCount a.milliseconds).toList],
      Text.IsLine line := by
    rw [List.forall_mem_append, List.forall_mem_singleton]
    exact ⟨isLine_of_mem_linesOf hnames hcells, isLine_footer _ _⟩
  refine ⟨Text.lines_flatMap hlines, rfl, isLaidOut_lineOf hwidths.names_fit,
    isRule_tableRule _, ?_⟩
  rw [List.forall₂_map_right_iff, List.forall₂_same]
  exact fun row hrow => isLaidOut_lineOf (hwidths.cells_fit hrow)

/-- An answer with columns and without line feeds in its texts has an aligned table, all lines of
which have their columns at the same offsets, unless a column is too wide. -/
theorem exists_isTabulated {a : Answer} {first : Row} (hfirst : a.rows.head? = some first)
    (hkeys : first.keys ≠ []) (hnames : ∀ key ∈ first.keys, '\n' ∉ key.toList)
    (hcells : ∀ row ∈ a.rows, ∀ v ∈ row.values, '\n' ∉ v.display.toList) :
    ∃ widths, IsTabulated a first.keys widths := by
  have hheaders : headers a.rows = first.keys := by
    obtain ⟨rest, hrows⟩ := List.head?_eq_some_iff.mp hfirst
    rw [hrows, headers]
  rw [← hheaders] at hkeys hnames ⊢
  have htable := table?_eq hkeys a.rowCount a.milliseconds
  refine ⟨columnWidths (tableCells a.rows), areWidths_columnWidths a.rows, fun hfits => ?_,
    fun hwide => ?_⟩
  · rw [if_pos ((forall_columnWidths_le_iff a.rows).mp hfits)] at htable
    have htext := isTable_linesOf hnames hcells
    rw [← toList_table] at htext
    exact ⟨_, htable, _, _, _, htext⟩
  · have hnot : ¬ FitsLimit a.rows := by
      rw [← forall_columnWidths_le_iff]
      push Not
      exact hwide
    rw [render?, htable, if_neg hnot]

end Report

namespace Sample

/-- Texts of several scripts, blank cells and missing ones, a bar in a text, and a key that is no
column. -/
def guests : Answer where
  query := "SELECT * FROM guests"
  rows := [
    .ofList [("name", .text "Zoë"), ("city", .text "東京"), ("note", .text " ")],
    .ofList [("age", .int 4), ("city", .null)],
    .ofList [("note", .text "a | b "), ("name", .text "")]]
  rowCount := 3
  milliseconds := 12
  tables := ["guests"]

theorem exists_isTabulated_guests :
    (∃ widths, Report.IsTabulated guests ["name", "city", "note"] widths) ∧
    Report.render? .table guests = some (
      "name | city | note\n" ++
      "-----+------+-------\n" ++
      "Zoë  | 東京   |\n" ++
      "     | NULL |\n" ++
      "     |      | a | b\n" ++
      "(3 rows, 12 ms)\n") :=
  ⟨Report.exists_isTabulated (a := guests) rfl (by decide) (by decide +kernel) (by decide +kernel),
    by decide +kernel⟩

/-- The answer that has one text, which is too long. -/
def scrolls : Answer := ⟨"SELECT body FROM notes", [scroll], 1, 0, ["notes"]⟩

/-- The text holds no line feed and its column has a name, and still there is no table. -/
theorem render?_scrolls :
    scrolls.rows.head? = some scroll ∧ scroll.keys = ["body"] ∧ '\n' ∉ "body".toList ∧
      (∀ row ∈ scrolls.rows, ∀ v ∈ row.values, '\n' ∉ v.display.toList) ∧
      Report.render? .table scrolls = none := by
  refine ⟨rfl, rfl, by decide, ?_, table?_scroll 1 0⟩
  have hvalues : scroll.values = [.text (String.ofList (List.replicate 65536 'x'))] := rfl
  have htext : (Scalar.text (String.ofList (List.replicate 65536 'x'))).display =
      String.ofList (List.replicate 65536 'x') := rfl
  rw [scrolls, List.forall_mem_singleton, hvalues, List.forall_mem_singleton, htext,
    String.toList_ofList]
  exact fun hmem => absurd (List.eq_of_mem_replicate hmem) (by decide)

end Sample
end DocumentSql
