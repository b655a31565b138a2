/-
# Conditions on integers in a serialized store

A query with one condition on a column of one table fetches the rows of the
table that are kept by one predicate and shows the column of each
(`execute_ofCondition`). In a serialized store integers compare exactly with an
integer, over the whole range of 64 bits. A negative integer is read as a text,
and there every integer is below every text. So the text
`SELECT column FROM table WHERE column operator n` is answered with the integers
that stand in the relation to `n`, in the order of storing, if `n` is not
negative; else with all of them or with none, by the operator
(`SerializedStore.answer_integerQuery`): no integer is found by a negative value
(`SerializedStore.answer_integerQuery_minusThree`).

Key definition: `Answer.ofIntegers`.
Key theorems: `execute_ofCondition`, `Comparison.holdsBetween_int`,
`SerializedStore.fetch_of_judge`, `SerializedStore.answer_integerQuery`.
-/
import DocumentSql.Proofs.Select.Fetched
import DocumentSql.Proofs.Select.RowCap
import DocumentSql.Proofs.Select.Sources
import DocumentSql.Proofs.Sql.IntegerCondition
import DocumentSql.Proofs.Store.IntegerFilter
import DocumentSql.Proofs.Store.Judging
import DocumentSql.Proofs.Store.OrderlyRuns

namespace DocumentSql

/-! ### One condition on one table -/

/-- In a query of one table a bare reference means the cell of that name. -/
theorem Scope.lookup?_of_single {s : Scope} {table : String} (hs : s.tables = [table])
    {column : String} (hdot : Column.IsDotFree column) (row : Row) :
    s.lookup? row column = row.get? column := by
  rw [lookup?, Column.split_of_isDotFree hdot, hs]
  cases row.get? column <;> rfl

section OneCondition

variable {schema : ProjectSchema} {table : TableSchema} {column : String} {comparison : Comparison}
  {value : Scalar}

theorem Plan.ofQuery_ofCondition (htable : schema.table? table.name = some table)
    (hcolumn : column ∈ table.columns) (hdot : Column.IsDotFree column)
    (hin : comparison ≠ .inList) :
    ofQuery (.ofCondition column table.name comparison value) schema =
      .ok ⟨⟨[table.name], .empty⟩, [table], [⟨table.name, ⟨column, comparison, value⟩⟩]⟩ := by
  have hlisted : table.hasColumn column = true := List.contains_iff_mem.mpr hcolumn
  refine ofQuery_eq_ok_iff.mpr {
    valid := rfl
    kind := rfl
    joins := rfl
    conditions := (checkConditions_eq_ok_iff _).mpr (List.forall_mem_singleton.mpr ⟨hin, nofun⟩)
    nonempty := List.cons_ne_nil _ _
    closed := rfl
    scope := rfl
    tables := ?_
    routed := ?_ }
  · rw [Query.ofCondition, findTables, htable]
    rfl
  · simp only [Query.ofCondition, routeConditions, routeColumn, Column.split_of_isDotFree hdot,
      List.find?_cons, hlisted]
    rfl

theorem execute_ofCondition (htable : schema.table? table.name = some table)
    (hcolumn : column ∈ table.columns) (hdot : Column.IsDotFree column) (hstar : column ≠ "*")
    (hin : comparison ≠ .inList) {fetch : Fetch} {rowCap : Nat} {documents : List Document}
    (hfetch : fetch table [⟨column, comparison, value⟩] rowCap = .ok documents) :
    execute (.ofCondition column table.name comparison value) schema fetch rowCap =
      .ok (documents.map fun d => .ofList [(column, d.data.cell column)]) := by
  refine execute_eq_ok_iff.mpr ⟨_, [(table.name, documents)],
    Plan.ofQuery_ofCondition htable hcolumn hdot hin, ?_, ?_⟩
  · simp only [Plan.fetchTables, Plan.predicatesFor, List.filter_cons, beq_self_eq_true, if_true,
      List.filter_nil, List.map_cons, List.map_nil, hfetch]
    rfl
  · rw [Plan.resultRows_of_plain rfl rfl]
    simp only [Query.ofCondition, Plan.joinedRows, Plan.documentsOf, Scope.base, List.head?_cons,
      Option.getD_some, Entries.find?, if_true, List.foldl_nil, List.map_map]
    refine List.map_congr_left fun d _ => ?_
    rw [Function.comp_apply, Plan.projectRow, List.flatMap_singleton, Plan.selectCells,
      if_neg hstar, Scope.lookup?_of_single rfl hdot, Row.cell]

end OneCondition

theorem RowSource.answer_of_execute {source : RowSource} {rowCap : Nat} {project sql : String}
    {q : Query} (hq : Query.ofText sql = q) (hvalid : q.isValid = true) {schema : ProjectSchema}
    (hschema : source.schema project = .ok schema) {rows : List Row}
    (hrows : execute q schema source.fetch rowCap = .ok rows) :
    source.answer rowCap project sql = .ok ⟨sql, rows, rows.length, 0, q.tables⟩ := by
  unfold answer
  simp only [hq, hvalid, hschema, Bool.not_true, Bool.false_eq_true, if_false, bind, Except.bind,
    hrows]
  rfl

/-! ### Comparing without types -/

namespace Comparison

variable {comparison : Comparison}

theorem holdsBetween_int (hlike : comparison ≠ .like) (i j : Int) :
    comparison.holdsBetween (.int i) (.int j) = decide (comparison.Relates i j) := by
  rw [← accepts_compare]
  cases comparison
  case like => exact absurd rfl hlike
  case notEq =>
    have hcell : (Stored.int i == .nothing) = false := rfl
    simp only [holdsBetween, hcell, Bool.false_or, Stored.compare?, accepts]
    cases compare i j <;> rfl
  all_goals rfl

/-- Any integer is below any text. -/
theorem holdsBetween_int_text (hlike : comparison ≠ .like) (i : Int) (text : String) :
    comparison.holdsBetween (.int i) (.text text) =
      decide (comparison ∈ [.notEq, .less, .lessEq]) := by
  cases comparison
  case like => exact absurd rfl hlike
  all_goals rfl

end Comparison

theorem Predicate.judge_of_int {p : Predicate} {row : Row} {i : Int64}
    (hcell : row.get? p.column = some (.int i)) (hplain : CellPath.IsPlainName p.column)
    (honly : CellPath.IsOnlyName p.column row) (hnull : p.value.isNull = false)
    (hin : p.comparison ≠ .inList) (hlike : p.comparison ≠ .like) :
    p.judge row = .ok (p.comparison.holdsBetween (.int i.toInt) (.ofScalar p.value)) := by
  have hrow : row.cell p.column = .int i := by rw [Row.cell, hcell, Option.getD_some]
  rw [judge_eq_holdsBetween hnull hin hlike hplain honly, hrow]
  rfl

theorem Row.cell_reread_of_int {row : Row} {column : String} {i : Int64}
    (hcell : row.get? column = some (.int i)) : row.reread.cell column = .int i := by
  rw [cell, get?_reread, hcell, Option.map_some, Option.getD_some, Scalar.reread_int]

theorem map_cell_documents {rows : List StoredRow} {column : String} {value : StoredRow → Int64}
    (h : ∀ r ∈ rows, r.row.get? column = some (.int (value r))) :
    ((rows.map fun r => (⟨Decimal.natText r.number, r.row.reread⟩ : Document)).map fun d =>
        (OrderedMap.ofList [(column, d.data.cell column)] : Row)) =
      (rows.map value).map fun i => .ofList [(column, .int i)] := by
  rw [List.map_map, List.map_map]
  refine List.map_congr_left fun r hr => ?_
  simp only [Function.comp_apply, Row.cell_reread_of_int (h r hr)]

namespace SerializedStore

theorem fetch_of_judge {s : SerializedStore} {t : TableSchema} {p : Predicate}
    {keeps : StoredRow → Bool} (hnull : p.value.isNull = false) (hin : p.comparison ≠ .inList)
    (hjudge : ∀ r ∈ s.rowsOf t.id, p.judge r.row = .ok (keeps r)) (limit : Nat) :
    s.fetch t [p] limit =
      .ok ((((s.rowsOf t.id).filter keeps).take (min limit maxLimit)).map fun r =>
        ⟨Decimal.natText r.number, r.row.reread⟩) := by
  have hconstant : p.constant? = none := by
    simp [Predicate.constant?, hnull, hin]
  have hdepth : Predicate.depthOf [p] ≤ Predicate.depthLimit := by
    have hsingle : p.depth ≤ 4 := by
      unfold Predicate.depth
      split
      · omega
      · split <;> omega
    calc Predicate.depthOf [p] = max 2 p.depth + 1 := rfl
      _ ≤ 1000 := by omega
  have hall : ∀ r ∈ s.rowsOf t.id, Predicate.judgeAll [p] r.row = .ok (keeps r) := by
    intro r hr
    rw [Predicate.judgeAll, hjudge r hr]
    cases keeps r <;> rfl
  have hselect : Predicate.select [p] (min limit maxLimit) (s.rowsOf t.id) =
      .ok (((s.rowsOf t.id).filter keeps).take (min limit maxLimit)) := by
    rw [Predicate.select, if_neg (Nat.not_lt.mpr hdepth), if_neg (by simp [hconstant])]
    exact Predicate.firstOf_of_judgeAll _ hall
  rw [fetch, hselect]
  exact mapM_eq_ok_map fun r _ => r.document_eq_reread

end SerializedStore

/-- The answer with one row for each integer, under the name of a column. -/
def Answer.ofIntegers (query table column : String) (integers : List Int64) : Answer where
  query := query
  rows := integers.map fun i => .ofList [(column, .int i)]
  rowCount := integers.length
  milliseconds := 0
  tables := [table]

namespace SerializedStore

section IntegerColumn

variable {s : SerializedStore} {project : String} {schema : ProjectSchema}
  (hschema : s.schema project = .ok schema) {table : TableSchema} {t column : Sql.Identifier}
  (htable : schema.table? t.text = some table) (hcolumn : column.text ∈ table.columns)
  {value : StoredRow → Int64}
  (hcells : ∀ r ∈ s.rowsOf table.id, r.row.get? column.text = some (.int (value r)))
  (honly : ∀ r ∈ s.rowsOf table.id, CellPath.IsOnlyName column.text r.row)
  {rowCap : Nat} (hcap : (s.rowsOf table.id).length ≤ rowCap)
  (hmax : (s.rowsOf table.id).length ≤ maxLimit)

include hschema htable hcolumn hcells honly hcap hmax

/-- A condition that keeps or leaves out an integer by itself is answered with the integers that it
keeps. -/
theorem answer_of_holdsBetween {operator : Sql.Operator} (hlike : operator ≠ .like) (n : Int64)
    {keeps : Int64 → Bool}
    (hkeeps : ∀ i : Int64, operator.comparison.holdsBetween (.int i.toInt)
      (.ofScalar (Sql.Value.ofInt n).scalar) = keeps i) :
    s.source.answer rowCap project (Sql.integerQuery column t operator n) =
      .ok (.ofIntegers (Sql.integerQuery column t operator n) t.text column.text
        (((s.rowsOf table.id).map value).filter keeps)) := by
  have hname : table.name = t.text := (mem_of_table? htable).2
  have hnull : (Sql.Value.ofInt n).scalar.isNull = false := by
    rw [Sql.Value.scalar_ofInt]
    split <;> rfl
  have hin : operator.comparison ≠ .inList := Sql.Operator.comparison_ne_inList
  have hjudge : ∀ r ∈ s.rowsOf table.id,
      Predicate.judge ⟨column.text, operator.comparison, (Sql.Value.ofInt n).scalar⟩ r.row =
        .ok (keeps (value r)) := by
    intro r hr
    rw [← hkeeps]
    exact Predicate.judge_of_int (hcells r hr) column.isPlainName (honly r hr) hnull hin
      (Sql.Operator.comparison_ne_like hlike)
  -- neither the cap nor the greatest limit cuts anything off
  have hall : ((s.rowsOf table.id).filter fun r => keeps (value r)).length ≤
      min rowCap maxLimit :=
    (List.length_filter_le _ _).trans (le_min hcap hmax)
  have hfetch := fetch_of_judge hnull hin hjudge rowCap
  rw [List.take_of_length_le hall] at hfetch
  have hexecute := execute_ofCondition (hname ▸ htable) hcolumn column.isDotFree column.ne_star hin
    hfetch
  have hkept : ∀ r ∈ (s.rowsOf table.id).filter fun r => keeps (value r),
      r.row.get? column.text = some (.int (value r)) :=
    fun r hr => hcells r (List.mem_filter.mp hr).1
  have hfilter : ((s.rowsOf table.id).filter fun r => keeps (value r)).map value =
      ((s.rowsOf table.id).map value).filter keeps := by
    rw [List.filter_map]
    rfl
  rw [map_cell_documents hkept, hfilter, hname] at hexecute
  have hanswer : s.source.answer rowCap project (Sql.integerQuery column t operator n) = _ :=
    RowSource.answer_of_execute (Query.ofText_integerQuery column t operator n) rfl hschema hexecute
  rw [hanswer, Answer.ofIntegers, List.length_map]
  rfl

/-- **Conditions on integers.** The text `SELECT column FROM table WHERE column operator n` is
answered with the integers of the column that stand in the relation to `n`, in the order of storing,
if `n` is not negative. The text of a negative `n` is not read as an integer: then an operator that
a smaller value satisfies keeps all integers, and every other one none. -/
theorem answer_integerQuery {operator : Sql.Operator} (hlike : operator ≠ .like) (n : Int64) :
    (0 ≤ n → s.source.answer rowCap project (Sql.integerQuery column t operator n) =
        .ok (.ofIntegers (Sql.integerQuery column t operator n) t.text column.text
          (((s.rowsOf table.id).map value).filter fun i =>
            operator.comparison.Relates i.toInt n.toInt))) ∧
      (n < 0 → s.source.answer rowCap project (Sql.integerQuery column t operator n) =
        .ok (.ofIntegers (Sql.integerQuery column t operator n) t.text column.text
          (((s.rowsOf table.id).map value).filter fun _ =>
            operator.comparison ∈ [.notEq, .less, .lessEq]))) := by
  have hcomparison := Sql.Operator.comparison_ne_like hlike
  constructor
  · intro hn
    have hscalar : (Sql.Value.ofInt n).scalar = .int n := by
      rw [Sql.Value.scalar_ofInt, if_neg (Int64.not_lt.mpr hn)]
    refine answer_of_holdsBetween hschema htable hcolumn hcells honly hcap hmax hlike n fun i => ?_
    rw [hscalar]
    exact Comparison.holdsBetween_int hcomparison i.toInt n.toInt
  · intro hn
    have hscalar : (Sql.Value.ofInt n).scalar = .text (Decimal.intText n.toInt) := by
      rw [Sql.Value.scalar_ofInt, if_pos hn]
    refine answer_of_holdsBetween hschema htable hcolumn hcells honly hcap hmax hlike n fun i => ?_
    rw [hscalar]
    exact Comparison.holdsBetween_int_text hcomparison i.toInt (Decimal.intText n.toInt)

end IntegerColumn

/-- Readings of a sensor: one below zero, and two that have the same double. -/
def readings : SerializedStore :=
  run [.create "p" "readings" ["value"],
    .insert "p" "readings" (.ofList [("value", .int 9007199254740993)]),
    .insert "p" "readings" (.ofList [("value", .int (-3)), ("late", .float .zero)]),
    .insert "p" "readings" (.ofList [("value", .int 9007199254740992)])]

def readingTable : TableSchema := ⟨"p:readings", "readings", ["value"]⟩

def readingsName : Sql.Identifier := ⟨"readings", by decide, by decide +kernel, by decide⟩

def valueName : Sql.Identifier := ⟨"value", by decide, by decide +kernel, by decide⟩

def readingValue (r : StoredRow) : Int64 :=
  match r.row.get? "value" with
  | some (.int i) => i
  | _ => 0

theorem answer_integerQuery_readings :
    readings.source.answer 3 "p" "SELECT value FROM readings WHERE value <= 9007199254740992" =
        .ok ⟨"SELECT value FROM readings WHERE value <= 9007199254740992",
          [.ofList [("value", .int (-3))], .ofList [("value", .int 9007199254740992)]], 2, 0,
          ["readings"]⟩ ∧
      readings.source.answer 3 "p" "SELECT value FROM readings WHERE value > -4" =
        .ok ⟨"SELECT value FROM readings WHERE value > -4", [], 0, 0, ["readings"]⟩ := by
  have hschema : readings.schema "p" = .ok ⟨"p", [readingTable]⟩ := by decide +kernel
  have hcells : ∀ r ∈ readings.rowsOf "p:readings",
      r.row.get? "value" = some (.int (readingValue r)) := by decide +kernel
  have honly : ∀ r ∈ readings.rowsOf "p:readings", CellPath.IsOnlyName "value" r.row := by
    decide +kernel
  have hlength : (readings.rowsOf "p:readings").length = 3 := by decide +kernel
  have hmax : (readings.rowsOf "p:readings").length ≤ maxLimit := hlength.trans_le (by decide)
  have hlow : Sql.integerQuery valueName readingsName .lessEq 9007199254740992 =
      "SELECT value FROM readings WHERE value <= 9007199254740992" := by decide +kernel
  have hhigh : Sql.integerQuery valueName readingsName .greater (-4) =
      "SELECT value FROM readings WHERE value > -4" := by decide +kernel
  have hanswer := @answer_integerQuery readings "p" _ hschema readingTable readingsName valueName
    rfl List.mem_cons_self readingValue hcells honly 3 hlength.le hmax
  rw [← hlow, ← hhigh]
  constructor
  · have hkept := (@hanswer .lessEq (by decide) 9007199254740992).1 (by decide)
    exact hkept.trans (by decide +kernel)
  · have hnone := (@hanswer .greater (by decide) (-4)).2 (by decide)
    exact hnone.trans (by decide +kernel)

/-- A reading below zero is not found by its value. -/
theorem answer_integerQuery_minusThree :
    readings.source.answer 3 "p" "SELECT value FROM readings WHERE value = -3" =
        .ok ⟨"SELECT value FROM readings WHERE value = -3", [], 0, 0, ["readings"]⟩ ∧
      ((readings.rowsOf "p:readings").map readingValue).filter
          (fun i => Comparison.eq.Relates i.toInt (-3 : Int64).toInt) = [-3] := by
  decide +kernel

end SerializedStore
end DocumentSql
