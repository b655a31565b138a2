/-
# Comma-separated values are read back

A reader of comma-separated values takes a field in quotes up to the quote that
closes it, two quotes inside standing for one, and any other field up to the next
comma or line end. It refuses a quote or a carriage return in a field without
quotes, and characters behind a closing quote. Records are ended by line feeds;
the last may do without. Readers differ on empty lines: some see a record with
one empty field, some skip them (`Csv.EmptyLine`).

Any such reader gets from `Report.csv` back the names of the columns and the
fields of every row (`Report.records?_render_csv`), since each field is read up to
where it was written (`Csv.field?_csvField`), whatever stands behind it, and no
record is written as an empty line (`Csv.exists_cons_csvRecord`).

Key definitions: `Csv.field?`, `Csv.record?`, `Csv.records?`.
Key theorems: `Csv.field?_csvField`, `Csv.record?_csvRecord`,
`Csv.records?_flatMap_csvRecord`, `Report.records?_render_csv`.
-/
import DocumentSql.Report.Format
import DocumentSql.Proofs.Lists

namespace DocumentSql
namespace Csv

/-! ### A reader -/

/-- What an empty line is to a reader. -/
inductive EmptyLine where
  /-- A record whose only field is empty. -/
  | record
  | nothing
deriving DecidableEq

/-- The characters of a field in quotes from behind the opening quote, and what follows the closing
quote. -/
def quotedField? : List Char → Option (List Char × List Char)
  | [] => none
  | '"' :: '"' :: rest => (quotedField? rest).map fun (field, after) => ('"' :: field, after)
  | '"' :: rest => some ([], rest)
  | c :: rest => (quotedField? rest).map fun (field, after) => (c :: field, after)

/-- Whether `c` may stand in a field without quotes. -/
def isBare (c : Char) : Bool := c != ',' && c != '"' && c != '\n' && c != '\r'

/-- The first field, and what follows it. -/
def field? (cs : List Char) : Option (String × List Char) :=
  if cs.head? = some '"' then
    (quotedField? cs.tail).map fun (field, after) => (String.ofList field, after)
  else some (String.ofList (cs.takeWhile isBare), cs.dropWhile isBare)

theorem length_quotedField? {cs field after : List Char}
    (h : quotedField? cs = some (field, after)) : after.length ≤ cs.length := by
  fun_induction quotedField? cs generalizing field with
  | case1 => cases h
  | case2 rest ih | case4 c rest _ _ ih =>
    obtain ⟨_, hr, he⟩ := Option.map_eq_some_iff.mp h
    obtain ⟨-, rfl⟩ := Prod.mk.inj he
    have hrest := ih hr
    simp only [List.length_cons]
    omega
  | case3 rest =>
    obtain ⟨-, rfl⟩ := Prod.mk.inj (Option.some.inj h)
    exact Nat.le_succ _

theorem length_field? {cs after : List Char} {field : String}
    (h : field? cs = some (field, after)) : after.length ≤ cs.length := by
  unfold field? at h
  split at h
  · obtain ⟨_, hr, he⟩ := Option.map_eq_some_iff.mp h
    obtain ⟨-, rfl⟩ := Prod.mk.inj he
    exact (length_quotedField? hr).trans (by simp)
  · obtain ⟨-, rfl⟩ := Prod.mk.inj (Option.some.inj h)
    exact (List.dropWhile_sublist _).length_le

/-- The fields of the first line, and the lines behind it. -/
def record? (cs : List Char) : Option (List String × List Char) :=
  match _h : field? cs with
  | some (field, ',' :: rest) =>
    (record? rest).map fun (fields, after) => (field :: fields, after)
  | some (field, '\n' :: rest) => some ([field], rest)
  | some (field, []) => some ([field], [])
  | _ => none
termination_by cs.length
decreasing_by exact length_field? _h

theorem length_record? {cs after : List Char} {fields : List String}
    (h : record? cs = some (fields, after)) : after.length ≤ cs.length - 1 := by
  fun_induction record? cs generalizing fields with
  | case1 cs field rest hfield ih =>
    obtain ⟨_, hr, he⟩ := Option.map_eq_some_iff.mp h
    obtain ⟨-, rfl⟩ := Prod.mk.inj he
    have hrest := ih hr
    have hcs := length_field? hfield
    simp only [List.length_cons] at hcs
    omega
  | case2 cs field rest hfield =>
    obtain ⟨-, rfl⟩ := Prod.mk.inj (Option.some.inj h)
    have hcs := length_field? hfield
    simp only [List.length_cons] at hcs
    omega
  | case3 =>
    obtain ⟨-, rfl⟩ := Prod.mk.inj (Option.some.inj h)
    exact Nat.zero_le _
  | case4 => cases h

/-- The records of a text. -/
def records? (emptyLine : EmptyLine) (cs : List Char) : Option (List (List String)) :=
  match cs with
  | [] => some []
  | c :: rest =>
    if c = '\n' ∧ emptyLine = .nothing then records? emptyLine rest
    else
      match _h : record? (c :: rest) with
      | some (fields, behind) => (records? emptyLine behind).map (fields :: ·)
      | none => none
termination_by cs.length
decreasing_by
  · exact Nat.lt_succ_self _
  · exact Nat.lt_succ_of_le (length_record? _h)

/-! ### Fields -/

open Report

/-- A field ends at the end of the text, at a comma or at a line end. -/
def EndsField (cs : List Char) : Prop := ∀ c ∈ cs.head?, c = ',' ∨ c = '\n'

theorem quotedField?_doubleQuotes {rest : List Char} (h : EndsField rest) : ∀ cs : List Char,
    quotedField? (doubleQuotes cs ++ '"' :: rest) = some (cs, rest)
  | [] => by
    cases rest with
    | nil => rfl
    | cons c rest =>
      rcases h c rfl with rfl | rfl <;> rfl
  | c :: cs => by
    have ih := quotedField?_doubleQuotes h cs
    by_cases hc : c = '"'
    · subst hc
      have hquotes : doubleQuotes ('"' :: cs) = '"' :: '"' :: doubleQuotes cs := rfl
      rw [hquotes, List.cons_append, List.cons_append, quotedField?, ih]
      rfl
    · have hplain : doubleQuotes (c :: cs) = c :: doubleQuotes cs := by
        simp [doubleQuotes, hc]
      rw [hplain, List.cons_append, quotedField?, ih]
      · rfl
      · exact fun _ he _ => hc he
      · exact hc

/-- A field in quotes is read up to its closing quote. -/
theorem field?_quoted (cs : List Char) {rest : List Char} (h : EndsField rest) :
    field? ('"' :: (doubleQuotes cs ++ '"' :: rest)) = some (String.ofList cs, rest) := by
  rw [field?, if_pos List.head?_cons, List.tail_cons, quotedField?_doubleQuotes h]
  rfl

theorem isBare_of_needsQuotes {cs : List Char} (h : needsQuotes cs = false) :
    ∀ c ∈ cs, isBare c = true := by
  intro c hc
  have hother := List.any_eq_false.mp h c hc
  simp only [Bool.or_eq_true, decide_eq_true_iff, not_or] at hother
  simp [isBare, hother]

theorem isBare_eq_false {cs : List Char} (h : EndsField cs) : ∀ c ∈ cs.head?, isBare c = false := by
  intro c hc
  rcases h c hc with rfl | rfl <;> rfl

/-- A field without quotes is read up to where it ends. -/
theorem field?_bare {cs rest : List Char} (hcs : ∀ c ∈ cs, isBare c = true) (h : EndsField rest) :
    field? (cs ++ rest) = some (String.ofList cs, rest) := by
  have hquote : (cs ++ rest).head? ≠ some '"' := by
    intro he
    cases cs with
    | nil => rcases h _ he with hc | hc <;> exact absurd hc (by decide)
    | cons c cs =>
      have hc := hcs c List.mem_cons_self
      rw [Option.some.inj he] at hc
      exact absurd hc (by decide)
  obtain ⟨htake, hdrop⟩ := takeWhile_append_of_ends hcs (isBare_eq_false h)
  rw [field?, if_neg hquote, htake, hdrop]

/-- A written field is read up to where it ends. -/
theorem field?_csvField (s : String) {rest : List Char} (h : EndsField rest) :
    field? (csvField s ++ rest) = some (s, rest) := by
  unfold csvField
  split
  · have hread := field?_quoted s.toList h
    rw [String.ofList_toList] at hread
    rwa [List.append_assoc, List.cons_append, List.singleton_append]
  · rename_i hneeds
    have hread := field?_bare (isBare_of_needsQuotes (Bool.eq_false_iff.mpr hneeds)) h
    rwa [String.ofList_toList] at hread

/-! ### Records -/

theorem record?_of_comma {cs rest : List Char} {field : String}
    (h : field? cs = some (field, ',' :: rest)) :
    record? cs = (record? rest).map fun (fields, after) => (field :: fields, after) := by
  rw [record?]
  split <;> grind

theorem record?_of_lineFeed {cs rest : List Char} {field : String}
    (h : field? cs = some (field, '\n' :: rest)) : record? cs = some ([field], rest) := by
  rw [record?]
  split <;> grind

theorem intercalate_csvField (field next : String) (fields : List String) :
    [','].intercalate ((field :: next :: fields).map csvField) =
      csvField field ++ ',' :: [','].intercalate ((next :: fields).map csvField) := by
  simp [List.intercalate_cons_cons]

/-- Written fields with commas between them are read up to the line feed. -/
theorem record?_intercalate (rest : List Char) : ∀ {fields : List String}, fields ≠ [] →
    record? ([','].intercalate (fields.map csvField) ++ '\n' :: rest) = some (fields, rest)
  | [], h => absurd rfl h
  | [field], _ => by
    rw [List.map_singleton, List.intercalate_singleton]
    exact record?_of_lineFeed (field?_csvField field (by simp [EndsField]))
  | field :: next :: fields, _ => by
    have ih := record?_intercalate rest (List.cons_ne_nil next fields)
    rw [intercalate_csvField, List.append_assoc, List.cons_append,
      record?_of_comma (field?_csvField field (by simp [EndsField])), ih]
    rfl

/-- A written record is read up to its line feed. -/
theorem record?_csvRecord {fields : List String} (hne : fields ≠ []) (rest : List Char) :
    record? (csvRecord fields ++ rest) = some (fields, rest) := by
  unfold csvRecord
  split
  · rename_i hempty
    subst hempty
    exact record?_of_lineFeed (field?_quoted [] (by simp [EndsField]))
  · rw [List.append_assoc, List.singleton_append]
    exact record?_intercalate rest hne

/-- No field is written as the end of a line. -/
theorem ne_of_csvField_eq_cons {s : String} {c : Char} {cs : List Char} (h : csvField s = c :: cs) :
    c ≠ '\n' := by
  unfold csvField at h
  split at h
  · obtain ⟨rfl, -⟩ := List.cons.inj h
    decide
  · rename_i hneeds
    have hbare := isBare_of_needsQuotes (Bool.eq_false_iff.mpr hneeds) c (h ▸ List.mem_cons_self)
    rintro rfl
    exact absurd hbare (by decide)

theorem csvField_ne_nil {s : String} (hs : s ≠ "") : csvField s ≠ [] := by
  unfold csvField
  split
  · exact List.cons_ne_nil _ _
  · exact mt String.toList_eq_nil_iff.mp hs

/-- No record is written as an empty line. -/
theorem exists_cons_csvRecord : ∀ {fields : List String}, fields ≠ [] →
    ∃ c cs, csvRecord fields = c :: cs ∧ c ≠ '\n'
  | [], h => absurd rfl h
  | [field], _ => by
    by_cases hempty : field = ""
    · exact ⟨'"', ['"', '\n'], by rw [hempty, csvRecord, if_pos rfl], by decide⟩
    · obtain ⟨c, cs, hfield⟩ := List.exists_cons_of_ne_nil (csvField_ne_nil hempty)
      refine ⟨c, cs ++ ['\n'], ?_, ne_of_csvField_eq_cons hfield⟩
      rw [csvRecord, if_neg (by simpa using hempty), List.map_singleton,
        List.intercalate_singleton, hfield, List.cons_append]
  | field :: next :: fields, _ => by
    -- a first field that is empty leaves the comma in front
    rw [csvRecord, if_neg (by simp), intercalate_csvField, List.append_assoc, List.cons_append]
    cases hfield : csvField field with
    | nil => exact ⟨',', _, rfl, by decide⟩
    | cons c cs => exact ⟨c, _, rfl, ne_of_csvField_eq_cons hfield⟩

/-! ### Texts -/

theorem records?_cons (emptyLine : EmptyLine) {c : Char} {cs rest : List Char}
    {fields : List String} (hc : c ≠ '\n') (h : record? (c :: cs) = some (fields, rest)) :
    records? emptyLine (c :: cs) = (records? emptyLine rest).map (fields :: ·) := by
  rw [records?, if_neg fun he => hc he.1]
  split <;> grind

/-- Written records are read back. -/
theorem records?_flatMap_csvRecord (emptyLine : EmptyLine) : ∀ {records : List (List String)},
    (∀ fields ∈ records, fields ≠ []) →
    records? emptyLine (records.flatMap csvRecord) = some records
  | [], _ => by rw [List.flatMap_nil, records?]
  | fields :: records, h => by
    rw [List.forall_mem_cons] at h
    have ih := records?_flatMap_csvRecord emptyLine h.2
    have hread := record?_csvRecord h.1 (records.flatMap csvRecord)
    obtain ⟨c, cs, hwritten, hc⟩ := exists_cons_csvRecord h.1
    rw [hwritten, List.cons_append] at hread
    rw [List.flatMap_cons, hwritten, List.cons_append, records?_cons emptyLine hc hread, ih]
    rfl

end Csv

namespace Report

/-- What is written of an answer whose first row has columns is read back as one record with their
names and one record for each row, with the texts of its cells in these columns. -/
theorem records?_render_csv (emptyLine : Csv.EmptyLine) {a : Answer} {first : Row}
    (hfirst : a.rows.head? = some first) (hkeys : first.keys ≠ []) :
    (render? .csv a).bind (fun text => Csv.records? emptyLine text.toList) =
      some (first.keys :: a.rows.map fun row => first.keys.map fun key => csvCell (row.get? key)) := by
  have hheaders : headers a.rows = first.keys := by
    obtain ⟨rest, hrows⟩ := List.head?_eq_some_iff.mp hfirst
    rw [hrows, headers]
  have hrecords : csvRecords a.rows =
      first.keys :: a.rows.map fun row => first.keys.map fun key => csvCell (row.get? key) := by
    rw [csvRecords, hheaders, if_neg (by simpa using hkeys)]
  rw [render?, Option.bind_some, csv, String.toList_ofList, hrecords]
  apply Csv.records?_flatMap_csvRecord emptyLine
  rw [List.forall_mem_cons]
  refine ⟨hkeys, fun fields hfields => ?_⟩
  obtain ⟨row, -, rfl⟩ := List.mem_map.mp hfields
  simpa using hkeys

end Report

namespace Sample

/-- Names and texts with commas, quotes and line ends; the second row lacks a column. -/
def remarks : Answer where
  query := "SELECT * FROM remarks"
  rows := [
    .ofList [("a,b", .text "x\n\"\r,"), ("say \"so\"", .null), ("", .int (-5))],
    .ofList [("", .text ""), ("a,b", .text "NULL")]]
  rowCount := 2
  milliseconds := 0
  tables := ["remarks"]

/-- One column, and no cell that shows. -/
def blanks : Answer :=
  ⟨"SELECT note FROM blanks", [.ofList [("", .null)], .empty, .ofList [("", .text "")]], 3, 0,
    ["blanks"]⟩

theorem records?_render_csv_remarks :
    (Report.render? .csv remarks).bind (fun text => Csv.records? .nothing text.toList) = some
        [["a,b", "say \"so\"", ""], ["x\n\"\r,", "", "-5"], ["NULL", "", ""]] ∧
      (Report.render? .csv blanks).bind (fun text => Csv.records? .nothing text.toList) =
        some [[""], [""], [""], [""]] :=
  ⟨(Report.records?_render_csv .nothing (a := remarks) rfl (by decide)).trans (by decide +kernel),
    (Report.records?_render_csv .nothing (a := blanks) rfl (by decide)).trans (by decide +kernel)⟩

end Sample
end DocumentSql
