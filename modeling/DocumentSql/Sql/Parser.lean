/-
# From tokens to statements

Each clause has a function that reads it from the front of a token list and
returns the tokens behind it. A clause ends at the end of the tokens, at `;`,
or at a keyword of a later clause, so clauses can be left out freely. Tokens
behind the last clause are ignored. Failures are `SyntaxError`s; the whole
statement is then `Query.invalid`.

A condition that breaks off before its value ends the statement without an
error, and LIMIT and OFFSET take a word that is no number for no limit.

Key definitions: `SyntaxError`, `Sql.untilClose`, `Sql.selectList`,
`Sql.tableRefs`, `Sql.joinClauses`, `Sql.conditions`, `Query.ofTokens`,
`Query.ofText`.
-/
import DocumentSql.Sql.Literal
import DocumentSql.Sql.Query

namespace DocumentSql

/-- Why tokens are no statement. -/
inductive SyntaxError where
  | empty
  | unknownStatement (word : String)
  | fromExpected
  | tableExpectedAfterFrom
  | unclosedCall (function : AggregateFunction)
  | aliasExpected
  | joinExpected (kind : JoinKind)
  | tableExpectedAfterJoin
  | onExpected (table : String)
  | incompleteOn
  | compoundOn
  | unclosedList
  | byExpected (clause : String)
  | intoExpected
  | deleteFromExpected
  | tableExpected
  | setExpected
deriving DecidableEq

namespace SyntaxError

/-- The message for a reader of the statement. -/
def message : SyntaxError → String
  | .empty => "empty query"
  | .unknownStatement word => "unsupported statement type '" ++ word ++ "'"
  | .fromExpected => "FROM keyword expected"
  | .tableExpectedAfterFrom => "table name expected after FROM"
  | .unclosedCall function => "unclosed parenthesis after " ++ function.text
  | .aliasExpected => "alias expected after AS"
  | .joinExpected kind => "JOIN expected after " ++ kind.text
  | .tableExpectedAfterJoin => "table name expected after JOIN"
  | .onExpected table => "ON expected after JOIN " ++ table
  | .incompleteOn => "incomplete ON clause"
  | .compoundOn => "unsupported feature: compound JOIN ON predicate"
  | .unclosedList => "unclosed IN list"
  | .byExpected clause => "BY expected after " ++ clause
  | .intoExpected => "INSERT INTO expected"
  | .deleteFromExpected => "DELETE FROM expected"
  | .tableExpected => "table name expected"
  | .setExpected => "SET keyword expected"

end SyntaxError

namespace Sql

/-- What a clause reads, and the tokens behind it. -/
abbrev Reading (α : Type) := α × List Token

/-- The words that open a join. -/
def joinStart : List String := ["JOIN", "INNER", "LEFT", "RIGHT", "FULL"]

/-- The words that end the table list of FROM, and the name of a joined table. -/
def fromStop : List String :=
  joinStart ++ ["ON", "WHERE", "GROUP", "HAVING", "ORDER", "LIMIT", "OFFSET"]

/-- The words that end the conditions of WHERE. -/
def whereStop : List String := joinStart ++ ["GROUP", "HAVING", "ORDER", "LIMIT", "OFFSET"]

/-- The words that end the columns of GROUP BY. -/
def groupStop : List String := ["HAVING", "ORDER", "LIMIT", "OFFSET"]

/-- The words that end the conditions of HAVING. -/
def havingStop : List String := ["ORDER", "LIMIT", "OFFSET"]

/-- The words that end the columns of ORDER BY. -/
def orderStop : List String := ["LIMIT", "OFFSET"]

/-- Whether a clause that is ended by `stops` ends here. -/
def atBoundary (stops : List String) : List Token → Bool
  | [] => true
  | t :: _ => t.isChar ';' || t.isAnyWord stops

/-- The tokens behind `keyword`, if it comes next. -/
def afterWord? (keyword : String) : List Token → Option (List Token)
  | [] => none
  | t :: ts => if t.isWord keyword then some ts else none

/-- Skips `keyword` if it comes next. -/
def skipWord (keyword : String) (ts : List Token) : List Token :=
  (afterWord? keyword ts).getD ts

/-- The texts of tokens, written without blanks between them. -/
def joinTexts (ts : List Token) : String := String.join (ts.map Token.text)

/-- The tokens up to the `)` that closes the innermost of `depth + 1` open parentheses that was
opened first, and the tokens behind it. -/
def untilClose (depth : Nat) : List Token → Option (List Token × List Token)
  | [] => none
  | t :: ts =>
    if t.isChar ')' then
      match depth with
      | 0 => some ([], ts)
      | depth + 1 => (untilClose depth ts).map fun (inner, rest) => (t :: inner, rest)
    else
      (untilClose (if t.isChar '(' then depth + 1 else depth) ts).map
        fun (inner, rest) => (t :: inner, rest)

theorem length_of_untilClose {depth : Nat} {ts inner rest : List Token}
    (h : untilClose depth ts = some (inner, rest)) : rest.length < ts.length := by
  induction ts generalizing depth inner rest with
  | nil => simp [untilClose] at h
  | cons t ts ih =>
    unfold untilClose at h
    split at h
    · split at h
      · simp only [Option.some.injEq, Prod.mk.injEq] at h
        simp [← h.2]
      · obtain ⟨⟨inner', rest'⟩, hc, heq⟩ := Option.map_eq_some_iff.mp h
        simp only [Prod.mk.injEq] at heq
        exact heq.2 ▸ Nat.lt_succ_of_lt (ih hc)
    · obtain ⟨⟨inner', rest'⟩, hc, heq⟩ := Option.map_eq_some_iff.mp h
      simp only [Prod.mk.injEq] at heq
      exact heq.2 ▸ Nat.lt_succ_of_lt (ih hc)

/-- What an item of the select list asks for. -/
inductive SelectItem where
  | column (text : String)
  | call (aggregate : Aggregate)
deriving DecidableEq

namespace SelectItem

/-- The column of the result. -/
def outputName : SelectItem → String
  | .column text => text
  | .call a => a.outputName

/-- The aggregate, if the item is one. -/
def aggregate? : SelectItem → Option Aggregate
  | .column _ => none
  | .call a => some a

end SelectItem

/-- The alias of an aggregate, which `AS` has to announce. -/
def callAlias (ts : List Token) : Except SyntaxError (Reading (Option String)) :=
  match afterWord? "AS" ts with
  | none => .ok (none, ts)
  | some [] => .error .aliasExpected
  | some (t :: rest) => .ok (some t.text, rest)

/-- The alias of a table, with or without `AS`. -/
def tableAlias (ts : List Token) : Except SyntaxError (Reading (Option String)) :=
  match afterWord? "AS" ts with
  | some [] => .error .aliasExpected
  | some (t :: rest) => .ok (some t.text, rest)
  | none =>
    match ts with
    | [] => .ok (none, [])
    | t :: rest =>
      if atBoundary fromStop ts || t.isChar ',' then .ok (none, ts) else .ok (some t.text, rest)

theorem length_afterWord? {keyword : String} {ts rest : List Token}
    (h : afterWord? keyword ts = some rest) : rest.length < ts.length := by
  cases ts with
  | nil => simp [afterWord?] at h
  | cons t ts =>
    simp only [afterWord?] at h
    split at h
    · simp only [Option.some.injEq] at h
      simp [← h]
    · simp at h

theorem length_skipWord (keyword : String) (ts : List Token) :
    (skipWord keyword ts).length ≤ ts.length := by
  unfold skipWord
  cases h : afterWord? keyword ts with
  | none => simp
  | some rest => exact Nat.le_of_lt (length_afterWord? h)

theorem length_callAlias {ts rest : List Token} {aliasName : Option String}
    (h : callAlias ts = .ok (aliasName, rest)) : rest.length ≤ ts.length := by
  unfold callAlias at h
  split at h
  · simp only [Except.ok.injEq, Prod.mk.injEq] at h
    simp [← h.2]
  · simp at h
  · rename_i t rest' hw
    have := length_afterWord? hw
    simp only [Except.ok.injEq, Prod.mk.injEq] at h
    rw [← h.2]
    simp only [List.length_cons] at this
    omega

theorem length_tableAlias {ts rest : List Token} {aliasName : Option String}
    (h : tableAlias ts = .ok (aliasName, rest)) : rest.length ≤ ts.length := by
  unfold tableAlias at h
  split at h
  · simp at h
  · rename_i t rest' hw
    have := length_afterWord? hw
    simp only [Except.ok.injEq, Prod.mk.injEq] at h
    rw [← h.2]
    simp only [List.length_cons] at this
    omega
  · split at h
    · simp only [Except.ok.injEq, Prod.mk.injEq] at h
      simp [← h.2]
    · split at h
      all_goals
        simp only [Except.ok.injEq, Prod.mk.injEq] at h
        simp [← h.2]

/-- The function that `t` calls if `ts` follows it: its name stands before an open parenthesis. -/
def calledFunction? (t : Token) (ts : List Token) : Option AggregateFunction :=
  match ts with
  | [] => none
  | p :: _ => if p.isChar '(' then AggregateFunction.ofWord? t.text else none

/-- The select list, up to FROM or the end. Commas are skipped wherever they stand. -/
def selectList (ts : List Token) : Except SyntaxError (Reading (List SelectItem)) :=
  match ts with
  | [] => .ok ([], [])
  | t :: rest =>
    if t.isWord "FROM" then .ok ([], t :: rest)
    else if t.isChar ',' then selectList rest
    else
      match calledFunction? t rest with
      | none => (selectList rest).map fun (items, behind) => (.column t.text :: items, behind)
      | some function =>
        match _hc : untilClose 0 (rest.drop 1) with
        | none => .error (.unclosedCall function)
        | some (inner, afterCall) =>
          match _ha : callAlias afterCall with
          | .error e => .error e
          | .ok (aliasName, afterAlias) =>
            (selectList afterAlias).map fun (items, behind) =>
              (.call ⟨function, Text.trim (joinTexts inner), aliasName⟩ :: items, behind)
termination_by ts.length
decreasing_by
  · simp
  · simp
  · have h1 := length_of_untilClose _hc
    have h2 := length_callAlias _ha
    simp only [List.length_drop, List.length_cons] at h1 ⊢
    omega

/-- A table of the FROM clause. -/
structure TableRef where
  table : String
  aliasName : Option String
deriving DecidableEq

/-- The tables of the FROM clause. Commas are skipped wherever they stand. -/
def tableRefs (ts : List Token) : Except SyntaxError (Reading (List TableRef)) :=
  match ts with
  | [] => .ok ([], [])
  | t :: rest =>
    if atBoundary fromStop (t :: rest) then .ok ([], t :: rest)
    else if t.isChar ',' then tableRefs rest
    else
      match _h : tableAlias rest with
      | .error e => .error e
      | .ok (aliasName, afterAlias) =>
        (tableRefs afterAlias).map fun (refs, behind) => (⟨t.text, aliasName⟩ :: refs, behind)
termination_by ts.length
decreasing_by
  · simp
  · exact Nat.lt_succ_of_le (length_tableAlias _h)

/-- The kind of a join that `t` opens, and the tokens from the table's name on. -/
def joinKind (t : Token) (ts : List Token) : Except SyntaxError (Reading JoinKind) :=
  if t.isWord "JOIN" then .ok (.inner, ts)
  else
    let kind := (JoinKind.ofWord? t.text).getD .inner
    match afterWord? "JOIN" (skipWord "OUTER" ts) with
    | some rest => .ok (kind, rest)
    | none => .error (.joinExpected kind)

/-- Whether the next token joins a further condition. -/
def atConnector : List Token → Bool
  | [] => false
  | t :: _ => (Connector.ofWord? t.text).isSome

/-- The two columns behind ON with their operator. -/
def onClause (table : String) (ts : List Token) : Except SyntaxError (Reading JoinOn) :=
  match afterWord? "ON" ts with
  | none => .error (.onExpected table)
  | some (left :: operator :: right :: rest) =>
    if atConnector rest then .error .compoundOn
    else .ok (⟨left.text, operator.text, right.text⟩, rest)
  | some _ => .error .incompleteOn

/-- The rest of a join whose kind has been read: table, alias and ON. -/
def joinTail (kind : JoinKind) (ts : List Token) : Except SyntaxError (Reading Join) :=
  match ts with
  | [] => .error .tableExpectedAfterJoin
  | t :: rest =>
    if atBoundary fromStop ts then .error .tableExpectedAfterJoin
    else do
      let (aliasName, rest) ← tableAlias rest
      let (on, rest) ← onClause t.text rest
      return (⟨kind, t.text, aliasName, on⟩, rest)

/-- One join that `t` opens. -/
def joinClause (t : Token) (ts : List Token) : Except SyntaxError (Reading Join) := do
  let (kind, rest) ← joinKind t ts
  joinTail kind rest

theorem length_joinKind {t : Token} {ts rest : List Token} {kind : JoinKind}
    (h : joinKind t ts = .ok (kind, rest)) : rest.length ≤ ts.length := by
  unfold joinKind at h
  split at h
  · simp only [Except.ok.injEq, Prod.mk.injEq] at h
    simp [← h.2]
  · simp only at h
    split at h
    · rename_i rest' hw
      have h1 := length_afterWord? hw
      have h2 := length_skipWord "OUTER" ts
      simp only [Except.ok.injEq, Prod.mk.injEq] at h
      rw [← h.2]
      omega
    · simp at h

theorem length_onClause {table : String} {ts rest : List Token} {on : JoinOn}
    (h : onClause table ts = .ok (on, rest)) : rest.length < ts.length := by
  unfold onClause at h
  split at h
  · simp at h
  · rename_i hw
    have := length_afterWord? hw
    split at h
    · simp at h
    · simp only [Except.ok.injEq, Prod.mk.injEq] at h
      rw [← h.2]
      simp only [List.length_cons] at this
      omega
  · simp at h

theorem length_joinTail {kind : JoinKind} {ts rest : List Token} {join : Join}
    (h : joinTail kind ts = .ok (join, rest)) : rest.length < ts.length := by
  unfold joinTail at h
  split at h
  · simp at h
  · rename_i t ts'
    split at h
    · simp at h
    · simp only [bind, Except.bind, pure, Except.pure] at h
      split at h
      · simp at h
      · rename_i p ha
        obtain ⟨aliasName, behindAlias⟩ := p
        split at h
        · simp at h
        · rename_i p ho
          obtain ⟨on, behindOn⟩ := p
          have h1 := length_tableAlias ha
          have h2 : behindOn.length < behindAlias.length := length_onClause ho
          simp only [Except.ok.injEq, Prod.mk.injEq] at h
          rw [← h.2]
          simp only [List.length_cons]
          omega

theorem length_joinClause {t : Token} {ts rest : List Token} {join : Join}
    (h : joinClause t ts = .ok (join, rest)) : rest.length < ts.length := by
  simp only [joinClause, bind, Except.bind] at h
  split at h
  · simp at h
  · rename_i p hk
    obtain ⟨kind, behindKind⟩ := p
    have h1 := length_joinKind hk
    have h2 : rest.length < behindKind.length := length_joinTail h
    omega

/-- The joins, as long as the next token opens one. -/
def joinClauses (ts : List Token) : Except SyntaxError (Reading (List Join)) :=
  match ts with
  | [] => .ok ([], [])
  | t :: rest =>
    if t.isAnyWord joinStart then
      match _h : joinClause t rest with
      | .error e => .error e
      | .ok (join, behindJoin) =>
        (joinClauses behindJoin).map fun (joins, behind) => (join :: joins, behind)
    else .ok ([], t :: rest)
termination_by ts.length
decreasing_by
  have := length_joinClause _h
  simp only [List.length_cons]
  omega

/-- The value of a condition whose operator has been read, `value` being the next token: behind IN
an open parenthesis stands for the list up to its close. -/
def conditionValue (comparison : Comparison) (value : Token) (ts : List Token) :
    Except SyntaxError (Reading Scalar) :=
  if comparison = .inList && value.isChar '(' then
    match untilClose 0 ts with
    | none => .error .unclosedList
    | some (inner, rest) => .ok (.text (joinTexts inner), rest)
  else .ok (value.scalar, ts)

/-- The connector behind a condition, if there is one. -/
def connector (ts : List Token) : Option Connector × List Token :=
  match ts with
  | [] => (none, [])
  | t :: rest =>
    match Connector.ofWord? t.text with
    | some c => (some c, rest)
    | none => (none, ts)

theorem length_conditionValue {comparison : Comparison} {value : Token} {ts rest : List Token}
    {v : Scalar} (h : conditionValue comparison value ts = .ok (v, rest)) :
    rest.length ≤ ts.length := by
  unfold conditionValue at h
  split at h
  · split at h
    · simp at h
    · rename_i hc
      have := length_of_untilClose hc
      simp only [Except.ok.injEq, Prod.mk.injEq] at h
      rw [← h.2]
      omega
  · simp only [Except.ok.injEq, Prod.mk.injEq] at h
    simp [← h.2]

theorem length_connector (ts : List Token) : (connector ts).2.length ≤ ts.length := by
  unfold connector
  split
  · simp
  · split <;> simp

/-- Conditions, up to a boundary. One or two tokens that are left over are dropped. -/
def conditions (stops : List String) (ts : List Token) :
    Except SyntaxError (Reading (List Condition)) :=
  if atBoundary stops ts then .ok ([], ts)
  else
    match ts with
    | column :: operator :: value :: rest =>
      match _h : conditionValue (Comparison.ofOperator operator.text) value rest with
      | .error e => .error e
      | .ok (v, behindValue) =>
        (conditions stops (connector behindValue).2).map fun (more, behind) =>
          (⟨column.text, Comparison.ofOperator operator.text, v, (connector behindValue).1⟩ :: more,
            behind)
    | _ => .ok ([], [])
termination_by ts.length
decreasing_by
  have h1 := length_conditionValue _h
  have h2 := length_connector behindValue
  simp only [List.length_cons]
  omega

/-- The conditions behind `keyword`, none if it is not there. -/
def conditionClause (keyword : String) (stops : List String) (ts : List Token) :
    Except SyntaxError (Reading (List Condition)) :=
  match afterWord? keyword ts with
  | none => .ok ([], ts)
  | some rest => conditions stops rest

/-- The WHERE clause. -/
def whereClause (ts : List Token) : Except SyntaxError (Reading (List Condition)) :=
  conditionClause "WHERE" whereStop ts

/-- The HAVING clause. -/
def havingClause (ts : List Token) : Except SyntaxError (Reading (List Condition)) :=
  conditionClause "HAVING" havingStop ts

/-- The tokens behind `keyword` and `BY`, if `keyword` is there. -/
def afterBy (keyword : String) (ts : List Token) : Except SyntaxError (Option (List Token)) :=
  match afterWord? keyword ts with
  | none => .ok none
  | some rest =>
    match afterWord? "BY" rest with
    | none => .error (.byExpected keyword)
    | some rest => .ok (some rest)

/-- Columns up to a boundary, commas left out. -/
def columnNames (stops : List String) : List Token → List String × List Token
  | [] => ([], [])
  | t :: rest =>
    if atBoundary stops (t :: rest) then ([], t :: rest)
    else
      let (names, behind) := columnNames stops rest
      (if t.isChar ',' then names else t.text :: names, behind)

/-- The GROUP BY clause. -/
def groupByClause (ts : List Token) : Except SyntaxError (Reading (List String)) := do
  match ← afterBy "GROUP" ts with
  | none => return ([], ts)
  | some rest => return columnNames groupStop rest

/-- The direction behind a column, ascending if none is given. -/
def direction (ts : List Token) : Direction × List Token :=
  match ts with
  | [] => (.asc, [])
  | t :: rest =>
    match Direction.ofWord? t.text with
    | some d => (d, rest)
    | none => (.asc, ts)

theorem length_direction (ts : List Token) : (direction ts).2.length ≤ ts.length := by
  unfold direction
  split
  · simp
  · split <;> simp

/-- Columns with their directions, up to a boundary. -/
def orderItems (stops : List String) (ts : List Token) : List OrderItem × List Token :=
  match ts with
  | [] => ([], [])
  | t :: rest =>
    if atBoundary stops (t :: rest) then ([], t :: rest)
    else if t.isChar ',' then orderItems stops rest
    else
      let (items, behind) := orderItems stops (direction rest).2
      (⟨t.text, (direction rest).1⟩ :: items, behind)
termination_by ts.length
decreasing_by
  · simp
  · exact Nat.lt_succ_of_le (length_direction rest)

/-- The ORDER BY clause. -/
def orderByClause (ts : List Token) : Except SyntaxError (Reading (List OrderItem)) := do
  match ← afterBy "ORDER" ts with
  | none => return ([], ts)
  | some rest => return orderItems orderStop rest

/-- The number that a token writes in digits, if 64 bits hold it. -/
def countOf? (t : Token) : Option UInt64 :=
  match Decimal.natural? t.text.toList with
  | some n => if n < UInt64.size then some (UInt64.ofNat n) else none
  | none => none

/-- The count behind `keyword`. The token behind it is used up even if it is no number. -/
def countClause (keyword : String) (ts : List Token) : Option UInt64 × List Token :=
  match afterWord? keyword ts with
  | none => (none, ts)
  | some [] => (none, [])
  | some (t :: rest) => (countOf? t, rest)

/-- The list without later repetitions of an entry. -/
def distinct (xs : List String) : List String :=
  xs.foldl (fun seen x => if seen.contains x then seen else seen ++ [x]) []

/-- The aliases of the tables of FROM and of the joins; the last use of an alias counts. -/
def aliasMap (refs : List TableRef) (joins : List Join) : OrderedMap String String :=
  OrderedMap.ofList <|
    refs.filterMap (fun r => r.aliasName.map (·, r.table)) ++
      joins.filterMap (fun j => j.aliasName.map (·, j.table))

/-- The statement behind SELECT. -/
def selectStatement (ts : List Token) : Except SyntaxError Query := do
  let (items, ts) ← selectList ts
  match afterWord? "FROM" ts with
  | none => throw .fromExpected
  | some ts =>
    let (refs, ts) ← tableRefs ts
    if refs.isEmpty then throw .tableExpectedAfterFrom
    let (joins, ts) ← joinClauses ts
    let (conditions, ts) ← whereClause ts
    let (groupBy, ts) ← groupByClause ts
    let (having, ts) ← havingClause ts
    let (orderBy, ts) ← orderByClause ts
    let (limit, ts) := countClause "LIMIT" ts
    let (offset, _) := countClause "OFFSET" ts
    return {
      kind := .select
      tables := distinct (refs.map (·.table) ++ joins.map (·.table))
      columns := items.map (·.outputName)
      aggregates := items.filterMap (·.aggregate?)
      aliases := aliasMap refs joins
      conditions, joins, groupBy, having, orderBy, limit, offset }

/-- The columns of a parenthesized list up to its end, commas left out. -/
def insertColumns : List Token → List String
  | [] => []
  | t :: rest =>
    if t.isChar ')' then []
    else if t.isChar ',' then insertColumns rest
    else t.text :: insertColumns rest

/-- The statement behind INSERT. The values are not looked at. -/
def insertStatement (ts : List Token) : Except SyntaxError Query :=
  match afterWord? "INTO" ts with
  | none => .error .intoExpected
  | some [] => .error .tableExpected
  | some (t :: rest) =>
    let columns :=
      match rest with
      | [] => []
      | p :: rest => if p.isChar '(' then insertColumns rest else []
    .ok { kind := .insert, tables := [t.text], columns }

/-- The statement behind UPDATE. The assignments are not looked at. -/
def updateStatement (ts : List Token) : Except SyntaxError Query :=
  match ts with
  | [] => .error .tableExpected
  | t :: rest =>
    match afterWord? "SET" rest with
    | none => .error .setExpected
    | some rest => do
      let (conditions, _) ← whereClause (rest.dropWhile (!·.isWord "WHERE"))
      return { kind := .update, tables := [t.text], conditions }

/-- The statement behind DELETE. -/
def deleteStatement (ts : List Token) : Except SyntaxError Query :=
  match afterWord? "FROM" ts with
  | none => .error .deleteFromExpected
  | some [] => .error .tableExpected
  | some (t :: rest) => do
    let (conditions, _) ← whereClause rest
    return { kind := .delete, tables := [t.text], conditions }

/-- The statement whose first token is `first`. -/
def statement (first : Token) (ts : List Token) : Except SyntaxError Query :=
  match StatementKind.ofWord first.text with
  | .select => selectStatement ts
  | .insert => insertStatement ts
  | .update => updateStatement ts
  | .delete => deleteStatement ts
  | .unknown => .error (.unknownStatement first.text)

end Sql

namespace Query

/-- The statement that the tokens write. -/
def ofTokens : List Sql.Token → Query
  | [] => .invalid .unknown (SyntaxError.message .empty)
  | first :: ts =>
    match Sql.statement first ts with
    | .ok query => query
    | .error e => .invalid (StatementKind.ofWord first.text) e.message

/-- The statement that a text writes. -/
def ofText (sql : String) : Query := ofTokens (Sql.tokenize sql)

end Query
end DocumentSql
