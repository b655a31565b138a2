/-
# Statements that await a word

A semicolon at the end of a statement is to end it and nothing more. It does, unless
the statement breaks off where the next token is taken whatever it is: behind AS, in
front of the second column of ON or of the value of a condition, in front of the
table of INSERT INTO, UPDATE or DELETE FROM, and within the columns of an INSERT
(`Sql.AwaitsWord`). There the semicolon becomes a table, an alias, a column or a
value, and an incomplete statement may become a valid one.

Key definitions: `Sql.SelectAwaits`, `Sql.AwaitsWord`.
Key theorems: `Sql.selectStatement_append_terminator`, `Sql.SelectAwaits.answer_ne`,
`Query.ofTokens_append_terminator_iff`.
-/
import DocumentSql.Proofs.Sql.TerminatedFrom

namespace DocumentSql
namespace Sql

variable {ts : List Token}

/-! ### The places where a word is awaited -/

/-- What a SELECT reads up to the tables of FROM, and the tokens behind them. -/
inductive ReadsTables : List Token → List SelectItem → List TableRef → List Token → Prop
  | intro {ts behindItems behindFrom behind : List Token} {items : List SelectItem}
      {refs : List TableRef} (readsItems : selectList ts = .ok (items, behindItems))
      (isFrom : afterWord? "FROM" behindItems = some behindFrom)
      (readsRefs : tableRefs behindFrom = .ok (refs, behind)) (nonempty : refs ≠ []) :
      ReadsTables ts items refs behind

/-- A SELECT that ends where the next token is taken whatever it is: behind AS, in front of the
second column of ON, and in front of the value of a condition. -/
inductive SelectAwaits : List Token → Prop
  | itemAlias {ts : List Token} (breaksOff : selectList ts = .error .aliasExpected) :
      SelectAwaits ts
  | tableAlias {ts behindItems behindFrom : List Token} {items : List SelectItem}
      (readsItems : selectList ts = .ok (items, behindItems))
      (isFrom : afterWord? "FROM" behindItems = some behindFrom)
      (breaksOff : tableRefs behindFrom = .error .aliasExpected) : SelectAwaits ts
  | joinAlias {ts behind : List Token} {items : List SelectItem} {refs : List TableRef}
      (readsTables : ReadsTables ts items refs behind)
      (breaksOff : joinClauses behind = .error .aliasExpected) : SelectAwaits ts
  | joinColumn {ts behind : List Token} {items : List SelectItem} {refs : List TableRef}
      (readsTables : ReadsTables ts items refs behind) (breaksOff : EndsInOn behind) :
      SelectAwaits ts
  | filterValue {ts behind : List Token} {items : List SelectItem} {refs : List TableRef}
      {joins : List Join} (readsHead : ReadsHead ts items refs joins behind)
      (breaksOff : AwaitsValue "WHERE" whereStop behind) : SelectAwaits ts
  | havingValue {ts behind behindFilter behindNames : List Token} {items : List SelectItem}
      {refs : List TableRef} {joins : List Join} {cs : List Condition} {names : List String}
      (readsHead : ReadsHead ts items refs joins behind)
      (readsFilter : whereClause behind = .ok (cs, behindFilter))
      (readsNames : groupByClause behindFilter = .ok (names, behindNames))
      (breaksOff : AwaitsValue "HAVING" havingStop behindNames) : SelectAwaits ts

/-- An INSERT that ends in front of its table, or within its columns. -/
inductive InsertAwaits : List Token → Prop
  | table {ts : List Token} (isInto : afterWord? "INTO" ts = some []) : InsertAwaits ts
  | column {ts columns : List Token} {table opening : Token}
      (isInto : afterWord? "INTO" ts = some (table :: opening :: columns))
      (opens : opening.isChar '(' = true) (noneCloses : ∀ t ∈ columns, t.isChar ')' = false) :
      InsertAwaits ts

/-- An UPDATE that ends in front of its table, or of the value of a condition. -/
inductive UpdateAwaits : List Token → Prop
  | table : UpdateAwaits []
  | filterValue {table : Token} {rest assignments : List Token}
      (isSet : afterWord? "SET" rest = some assignments)
      (breaksOff : AwaitsValue "WHERE" whereStop (assignments.dropWhile (!·.isWord "WHERE"))) :
      UpdateAwaits (table :: rest)

/-- A DELETE that ends in front of its table, or of the value of a condition. -/
inductive DeleteAwaits : List Token → Prop
  | table {ts : List Token} (isFrom : afterWord? "FROM" ts = some []) : DeleteAwaits ts
  | filterValue {ts rest : List Token} {table : Token}
      (isFrom : afterWord? "FROM" ts = some (table :: rest))
      (breaksOff : AwaitsValue "WHERE" whereStop rest) : DeleteAwaits ts

/-- The statement that begins with `first` ends where the next token is taken whatever it is. -/
def AwaitsWord (first : Token) (ts : List Token) : Prop :=
  match StatementKind.ofWord first.text with
  | .select => SelectAwaits ts
  | .insert => InsertAwaits ts
  | .update => UpdateAwaits ts
  | .delete => DeleteAwaits ts
  | .unknown => False

/-! ### Answers -/

/-- The answer to a statement of the given kind. -/
def answer (kind : StatementKind) : Except SyntaxError Query → Query
  | .ok q => q
  | .error e => .invalid kind e.message

theorem answer_ok_ne_error {kind : StatementKind} {q : Query} (hq : q.isValid = true)
    (e : SyntaxError) : answer kind (.ok q) ≠ answer kind (.error e) := fun h => by
  have hinvalid : q.isValid = false := congrArg Query.isValid h
  rw [hq] at hinvalid
  cases hinvalid

theorem answer_error_ne_error {kind : StatementKind} {e e' : SyntaxError}
    (he : e.message ≠ e'.message) : answer kind (.error e) ≠ answer kind (.error e') := fun h =>
  he (Option.some.inj (congrArg Query.error h))

theorem append_singleton_ne {α : Type} (xs : List α) (x : α) : xs ++ [x] ≠ xs := fun h =>
  List.cons_ne_nil x [] (List.append_right_eq_self.mp h)

/-! ### SELECT -/

section Select

variable {behind behindItems behindFrom : List Token} {items : List SelectItem}
  {refs : List TableRef}

theorem ReadsTables.append_terminator (h : ReadsTables ts items refs behind) :
    ReadsTables (ts ++ [terminator]) items refs (behind ++ [terminator]) := by
  obtain ⟨readsItems, isFrom, readsRefs, nonempty⟩ := h
  exact .intro (selectList_append readsItems (ne_nil_of_afterWord? isFrom) _)
    (afterWord?_append isFrom _) (tableRefs_append readsRefs (stopsAlike_terminator behind))
    nonempty

theorem selectStatement_of_noFrom (hitems : selectList ts = .ok (items, behindItems))
    (hfrom : afterWord? "FROM" behindItems = none) :
    selectStatement ts = .error .fromExpected := by
  unfold selectStatement
  simp only [bind, Except.bind, hitems, hfrom]
  rfl

/-- Behind FROM a SELECT goes on with its tables. -/
theorem selectStatement_of_from (hitems : selectList ts = .ok (items, behindItems))
    (hfrom : afterWord? "FROM" behindItems = some behindFrom) :
    selectStatement ts = (tableRefs behindFrom).bind fun (refs, behind) =>
      if refs.isEmpty then .error .tableExpectedAfterFrom
      else (joinClauses behind).bind fun (joins, behind) =>
        (whereClause behind).bind fun (cs, behind) => selectTail items refs joins cs behind := by
  unfold selectStatement selectTail
  simp only [bind, Except.bind, hitems, hfrom]
  cases tableRefs behindFrom with
  | error e => rfl
  | ok reading =>
    simp only
    cases reading.1.isEmpty <;> rfl

theorem ReadsTables.selectStatement_eq (h : ReadsTables ts items refs behind) :
    selectStatement ts = (joinClauses behind).bind fun (joins, behind) =>
      (whereClause behind).bind fun (cs, behind) => selectTail items refs joins cs behind := by
  obtain ⟨readsItems, isFrom, readsRefs, nonempty⟩ := h
  have hempty : refs.isEmpty = false := by simpa using nonempty
  rw [selectStatement_of_from readsItems isFrom, readsRefs]
  simp only [Except.bind, hempty, Bool.false_eq_true, if_false]

theorem ReadsTables.readsHead {joins : List Join} {behindJoins : List Token}
    (h : ReadsTables ts items refs behind)
    (hjoins : joinClauses behind = .ok (joins, behindJoins)) :
    ReadsHead ts items refs joins behindJoins := by
  obtain ⟨readsItems, isFrom, readsRefs, nonempty⟩ := h
  exact .intro readsItems isFrom readsRefs nonempty hjoins

/-- Behind its tables a SELECT that awaits no word goes on alike. -/
theorem ReadsTables.selectStatement_append_terminator (ht : ReadsTables ts items refs behind)
    (h : ¬ SelectAwaits ts) : selectStatement (ts ++ [terminator]) = selectStatement ts := by
  rw [ht.append_terminator.selectStatement_eq, ht.selectStatement_eq]
  have halike := joinClauses_alike behind
  generalize joinClauses (behind ++ [terminator]) = r at halike
  cases hjoins : joinClauses behind with
  | error e =>
    rw [hjoins] at halike
    cases halike with
    | error => rfl
    | lacksAlias => exact absurd (.joinAlias ht hjoins) h
    | lacksColumn _ breaksOff => exact absurd (.joinColumn ht breaksOff) h
  | ok reading =>
    obtain ⟨joins, behindJoins⟩ := reading
    rw [hjoins] at halike
    cases halike
    have hhead := ht.readsHead hjoins
    have hfilter : ReadsAlike (whereClause behindJoins)
        (whereClause (behindJoins ++ [terminator])) :=
      conditionClause_alike (by decide) (.terminated _) fun hb => h (.filterValue hhead hb)
    refine (hfilter.bind_eq fun cs behindFilter _ hcs ends => ?_).symm
    refine selectTail_eq_of_endsAlike ends fun names behindNames hnames hb => ?_
    exact h (.havingValue hhead hcs hnames hb)

/-- A SELECT that awaits no word is the same with the terminator behind it. -/
theorem selectStatement_append_terminator (h : ¬ SelectAwaits ts) :
    selectStatement (ts ++ [terminator]) = selectStatement ts := by
  have halike := selectList_alike ts
  generalize hwith : selectList (ts ++ [terminator]) = r at halike
  cases hitems : selectList ts with
  | error e =>
    rw [hitems] at halike
    cases halike with
    | error hasAlias =>
      unfold selectStatement
      simp only [bind, Except.bind, hitems, hwith]
    | lacksAlias => exact absurd (.itemAlias hitems) h
  | ok reading =>
    obtain ⟨items, behindItems⟩ := reading
    rw [hitems] at halike
    cases halike with
    | lacksFrom _ items' =>
      rw [selectStatement_of_noFrom hitems rfl, selectStatement_of_noFrom hwith rfl]
    | ok =>
      cases hfrom : afterWord? "FROM" behindItems with
      | none =>
        have hfrom' : afterWord? "FROM" (behindItems ++ [terminator]) = none :=
          afterWord?_append_eq_none hfrom (stopsAlike_terminator _) (by decide)
        rw [selectStatement_of_noFrom hitems hfrom, selectStatement_of_noFrom hwith hfrom']
      | some behindFrom =>
        have hfrom' := afterWord?_append hfrom [terminator]
        cases hrefs : tableRefs behindFrom with
        | error e =>
          obtain ⟨rfl, -⟩ := tableRefs_error hrefs
          exact absurd (.tableAlias hitems hfrom hrefs) h
        | ok reading =>
          obtain ⟨refs, behind⟩ := reading
          by_cases hempty : refs = []
          · rw [selectStatement_of_from hitems hfrom, selectStatement_of_from hwith hfrom', hrefs,
              tableRefs_append hrefs (stopsAlike_terminator behind), hempty]
            rfl
          · have ht : ReadsTables ts items refs behind := .intro hitems hfrom hrefs hempty
            exact ht.selectStatement_append_terminator h

end Select

theorem message_onExpected_ne (table : String) :
    (SyntaxError.onExpected table).message ≠ SyntaxError.aliasExpected.message := by
  intro h
  have hon : "ON expected after JOIN ".toList.head? = some 'O' := by decide +kernel
  have hhead : (SyntaxError.onExpected table).message.toList.head? = some 'O' := by
    show ("ON expected after JOIN " ++ table).toList.head? = some 'O'
    rw [String.toList_append, List.head?_append, hon, Option.some_or]
  rw [h] at hhead
  revert hhead
  decide +kernel

/-- Behind the last token a SELECT reads nothing more. -/
theorem selectTail_nil (items : List SelectItem) (refs : List TableRef) (joins : List Join)
    (cs : List Condition) :
    ∃ q, selectTail items refs joins cs [] = .ok q ∧ q.conditions = cs :=
  ⟨_, rfl, rfl⟩

/-- Conditions that end in front of HAVING are followed by the terminator. -/
theorem whereClause_append_terminator {behind : List Token} {cs : List Condition}
    (h : whereClause ts = .ok (cs, behind)) (hne : behind ≠ []) :
    whereClause (ts ++ [terminator]) = .ok (cs, behind ++ [terminator]) := by
  have hgo : ¬ AwaitsValue "WHERE" whereStop ts := fun hb => by
    obtain ⟨_, _, hread, -⟩ := conditionClause_of_awaitsValue hb
    rw [whereClause, hread] at h
    exact hne (Prod.mk.inj (Except.ok.inj h)).2.symm
  exact (conditionClause_alike (by decide) (.terminated ts) hgo).eq_ok h hne

section Differ

variable {items : List SelectItem} {refs : List TableRef} {joins : List Join}
  {behind : List Token}

/-- With a value in its place the last condition of WHERE is not dropped. -/
theorem ReadsHead.answer_ne_of_filter (hhead : ReadsHead ts items refs joins behind)
    (h : AwaitsValue "WHERE" whereStop behind) :
    answer .select (selectStatement (ts ++ [terminator])) ≠
      answer .select (selectStatement ts) := by
  obtain ⟨before, last, hread, hwith⟩ := conditionClause_of_awaitsValue h
  obtain ⟨q, hq, hcs⟩ := selectTail_nil items refs joins before
  obtain ⟨q', hq', hcs'⟩ := selectTail_nil items refs joins (before ++ [last])
  have hsame : selectStatement ts = .ok q := by
    rw [selectStatement_of_head hhead, whereClause, hread]
    exact hq
  have hother : selectStatement (ts ++ [terminator]) = .ok q' := by
    rw [selectStatement_of_head (hhead.append (stopsAlike_terminator behind)), whereClause, hwith]
    exact hq'
  rw [hsame, hother]
  intro heq
  have hconditions := congrArg Query.conditions heq
  rw [answer, answer, hcs, hcs'] at hconditions
  exact append_singleton_ne before last hconditions

/-- Nor is that of HAVING. -/
theorem ReadsHead.answer_ne_of_having {behindFilter behindNames : List Token} {cs : List Condition}
    {names : List String} (hhead : ReadsHead ts items refs joins behind)
    (hcs : whereClause behind = .ok (cs, behindFilter))
    (hnames : groupByClause behindFilter = .ok (names, behindNames))
    (h : AwaitsValue "HAVING" havingStop behindNames) :
    answer .select (selectStatement (ts ++ [terminator])) ≠
      answer .select (selectStatement ts) := by
  have hne : behindFilter ≠ [] := ne_nil_of_read rfl hnames h.ne_nil
  obtain ⟨q, last, hread, hwith⟩ := selectTail_of_awaitsValue cs hnames h
  have hsame : selectStatement ts = .ok q := by
    rw [selectStatement_of_head hhead, hcs]
    exact hread
  have hother : selectStatement (ts ++ [terminator]) =
      .ok { q with having := q.having ++ [last] } := by
    rw [selectStatement_of_head (hhead.append (stopsAlike_terminator behind)),
      whereClause_append_terminator hcs hne]
    exact hwith
  rw [hsame, hother]
  intro heq
  exact append_singleton_ne q.having last (congrArg Query.having heq)

/-- Joins that lack an alias or a column fail, but not for this reason with the terminator behind
them. -/
theorem ReadsTables.answer_ne (ht : ReadsTables ts items refs behind)
    (h : joinClauses behind = .error .aliasExpected ∨ EndsInOn behind) :
    answer .select (selectStatement (ts ++ [terminator])) ≠
      answer .select (selectStatement ts) := by
  have halike := joinClauses_alike behind
  rw [ht.append_terminator.selectStatement_eq, ht.selectStatement_eq]
  generalize joinClauses (behind ++ [terminator]) = r' at halike ⊢
  generalize joinClauses behind = r at h halike ⊢
  cases halike with
  | error complete hasAlias =>
    rcases h with herror | hends
    · exact absurd (Except.error.inj herror) hasAlias
    · exact absurd hends complete
  | lacksAlias table => exact answer_error_ne_error (message_onExpected_ne table)
  | lacksColumn => exact answer_ok_ne_error rfl _
  | ok _ _ complete =>
    rcases h with herror | hends
    · cases herror
    · exact absurd hends complete

end Differ

/-- A SELECT that awaits a word is another one with the terminator behind it. -/
theorem SelectAwaits.answer_ne (h : SelectAwaits ts) :
    answer .select (selectStatement (ts ++ [terminator])) ≠
      answer .select (selectStatement ts) := by
  cases h with
  | itemAlias breaksOff =>
    have halike := selectList_alike ts
    generalize hwith : selectList (ts ++ [terminator]) = r at halike
    rw [breaksOff] at halike
    have herror : selectStatement ts = .error .aliasExpected := by
      unfold selectStatement
      simp only [bind, Except.bind, breaksOff]
    cases halike with
    | error hasAlias => exact absurd rfl hasAlias
    | lacksAlias =>
      rw [herror, selectStatement_of_noFrom hwith rfl]
      exact answer_error_ne_error (by decide +kernel)
  | tableAlias readsItems isFrom breaksOff =>
    obtain ⟨-, refs, hne, hwith⟩ := tableRefs_error breaksOff
    have ht : ReadsTables (ts ++ [terminator]) _ refs [] :=
      .intro (selectList_append readsItems (ne_nil_of_afterWord? isFrom) _)
        (afterWord?_append isFrom _) hwith hne
    have herror : selectStatement ts = .error .aliasExpected := by
      rw [selectStatement_of_from readsItems isFrom, breaksOff]
      rfl
    rw [herror, ht.selectStatement_eq, joinClauses_nil]
    exact answer_ok_ne_error rfl _
  | joinAlias readsTables breaksOff => exact readsTables.answer_ne (.inl breaksOff)
  | joinColumn readsTables breaksOff => exact readsTables.answer_ne (.inr breaksOff)
  | filterValue readsHead breaksOff => exact readsHead.answer_ne_of_filter breaksOff
  | havingValue readsHead readsFilter readsNames breaksOff =>
    exact readsHead.answer_ne_of_having readsFilter readsNames breaksOff

/-! ### INSERT -/

/-- The columns that an INSERT lists behind its table. -/
def listedColumns : List Token → List String
  | [] => []
  | p :: rest => if p.isChar '(' then insertColumns rest else []

theorem insertStatement_of_into {table : Token} {rest : List Token}
    (h : afterWord? "INTO" ts = some (table :: rest)) :
    insertStatement ts =
      .ok { kind := .insert, tables := [table.text], columns := listedColumns rest } := by
  simp only [insertStatement, h]
  cases rest <;> rfl

/-- The columns of an INSERT end at the first close. -/
theorem insertColumns_append_terminator (ts : List Token) :
    insertColumns (ts ++ [terminator]) =
      if ts.all (!·.isChar ')') then insertColumns ts ++ [terminator.text]
      else insertColumns ts := by
  have hclose : terminator.isChar ')' = false := by decide +kernel
  have hcomma : terminator.isChar ',' = false := by decide +kernel
  induction ts with
  | nil => simp [insertColumns, hclose, hcomma]
  | cons t ts ih =>
    rw [List.cons_append, insertColumns, insertColumns, List.all_cons]
    cases t.isChar ')' with
    | true => rfl
    | false =>
      cases t.isChar ',' with
      | true => exact ih
      | false =>
        simp only [Bool.false_eq_true, if_false, ih, Bool.not_false, Bool.true_and]
        split <;> rfl

theorem insertStatement_append_terminator (h : ¬ InsertAwaits ts) :
    insertStatement (ts ++ [terminator]) = insertStatement ts := by
  cases hinto : afterWord? "INTO" ts with
  | none =>
    have hinto' : afterWord? "INTO" (ts ++ [terminator]) = none :=
      afterWord?_append_eq_none hinto (stopsAlike_terminator ts) (by decide)
    simp only [insertStatement, hinto, hinto']
  | some rest =>
    cases rest with
    | nil => exact absurd (.table hinto) h
    | cons table rest =>
      have hinto' : afterWord? "INTO" (ts ++ [terminator]) =
        some (table :: (rest ++ [terminator])) := afterWord?_append hinto [terminator]
      rw [insertStatement_of_into hinto, insertStatement_of_into hinto']
      cases rest with
      | nil => rfl
      | cons opening columns =>
        by_cases hopen : opening.isChar '(' = true
        · have hall : columns.all (!·.isChar ')') = false := by
            rw [Bool.eq_false_iff]
            intro hall
            refine h (.column hinto hopen fun t ht => ?_)
            simpa using List.all_eq_true.mp hall t ht
          simp only [List.cons_append, listedColumns, hopen, if_true,
            insertColumns_append_terminator, hall, Bool.false_eq_true, if_false]
        · simp only [List.cons_append, listedColumns, hopen, if_false, Bool.false_eq_true]

theorem InsertAwaits.answer_ne (h : InsertAwaits ts) :
    answer .insert (insertStatement (ts ++ [terminator])) ≠
      answer .insert (insertStatement ts) := by
  cases h with
  | table isInto =>
    have herror : insertStatement ts = .error .tableExpected := by
      simp only [insertStatement, isInto]
    rw [herror, insertStatement_of_into (afterWord?_append isInto [terminator])]
    exact answer_ok_ne_error rfl _
  | @column columns table opening isInto opens noneCloses =>
    have hall : columns.all (!·.isChar ')') = true :=
      List.all_eq_true.mpr fun t ht => by simp [noneCloses t ht]
    have isInto' : afterWord? "INTO" (ts ++ [terminator]) =
      some (table :: opening :: (columns ++ [terminator])) := afterWord?_append isInto [terminator]
    rw [insertStatement_of_into isInto, insertStatement_of_into isInto']
    simp only [listedColumns, opens, if_true, insertColumns_append_terminator, hall]
    intro h
    exact append_singleton_ne (insertColumns columns) terminator.text (congrArg Query.columns h)

/-! ### UPDATE -/

/-- The assignments end at WHERE, or at the end of the tokens. -/
theorem dropWhile_append_terminator (ts : List Token) :
    EndsAlike (ts.dropWhile (!·.isWord "WHERE"))
      ((ts ++ [terminator]).dropWhile (!·.isWord "WHERE")) := by
  have hwhere : terminator.isWord "WHERE" = false := by decide +kernel
  induction ts with
  | nil =>
    rw [List.nil_append, List.dropWhile_cons, hwhere]
    exact .exhausted
  | cons t ts ih =>
    rw [List.cons_append, List.dropWhile_cons, List.dropWhile_cons]
    cases t.isWord "WHERE" with
    | true => exact .terminated (t :: ts)
    | false => exact ih

theorem updateStatement_of_set {table : Token} {rest assignments : List Token}
    (h : afterWord? "SET" rest = some assignments) :
    updateStatement (table :: rest) =
      (whereClause (assignments.dropWhile (!·.isWord "WHERE"))).bind fun (conditions, _) =>
        .ok { kind := .update, tables := [table.text], conditions } := by
  simp only [updateStatement, h]
  rfl

theorem updateStatement_append_terminator (h : ¬ UpdateAwaits ts) :
    updateStatement (ts ++ [terminator]) = updateStatement ts := by
  cases ts with
  | nil => exact absurd .table h
  | cons table rest =>
    rw [List.cons_append]
    cases hset : afterWord? "SET" rest with
    | none =>
      have hset' : afterWord? "SET" (rest ++ [terminator]) = none :=
        afterWord?_append_eq_none hset (stopsAlike_terminator rest) (by decide)
      simp only [updateStatement, hset, hset']
    | some assignments =>
      rw [updateStatement_of_set hset, updateStatement_of_set (afterWord?_append hset _)]
      have hfilter := conditionClause_alike (by decide) (dropWhile_append_terminator assignments)
        fun hb => h (.filterValue hset hb)
      exact (hfilter.bind_eq fun _ _ _ _ _ => rfl).symm

theorem UpdateAwaits.answer_ne (h : UpdateAwaits ts) :
    answer .update (updateStatement (ts ++ [terminator])) ≠
      answer .update (updateStatement ts) := by
  cases h with
  | table => exact answer_error_ne_error (by decide +kernel)
  | @filterValue table rest assignments isSet breaksOff =>
    obtain ⟨before, last, hread, hwith⟩ := conditionClause_of_awaitsValue breaksOff
    rw [List.cons_append, updateStatement_of_set isSet,
      updateStatement_of_set (afterWord?_append isSet _),
      (dropWhile_append_terminator assignments).eq_append breaksOff.ne_nil, whereClause,
      whereClause, hread, hwith]
    intro h
    exact append_singleton_ne before last (congrArg Query.conditions h)

/-! ### DELETE -/

theorem deleteStatement_of_from {table : Token} {rest : List Token}
    (h : afterWord? "FROM" ts = some (table :: rest)) :
    deleteStatement ts = (whereClause rest).bind fun (conditions, _) =>
      .ok { kind := .delete, tables := [table.text], conditions } := by
  simp only [deleteStatement, h]
  rfl

theorem deleteStatement_append_terminator (h : ¬ DeleteAwaits ts) :
    deleteStatement (ts ++ [terminator]) = deleteStatement ts := by
  cases hfrom : afterWord? "FROM" ts with
  | none =>
    have hfrom' : afterWord? "FROM" (ts ++ [terminator]) = none :=
      afterWord?_append_eq_none hfrom (stopsAlike_terminator ts) (by decide)
    simp only [deleteStatement, hfrom, hfrom']
  | some rest =>
    cases rest with
    | nil => exact absurd (.table hfrom) h
    | cons table rest =>
      have hfrom' : afterWord? "FROM" (ts ++ [terminator]) =
        some (table :: (rest ++ [terminator])) := afterWord?_append hfrom [terminator]
      rw [deleteStatement_of_from hfrom, deleteStatement_of_from hfrom']
      have hfilter := conditionClause_alike (by decide) (.terminated rest)
        fun hb => h (.filterValue hfrom hb)
      exact (hfilter.bind_eq fun _ _ _ _ _ => rfl).symm

theorem DeleteAwaits.answer_ne (h : DeleteAwaits ts) :
    answer .delete (deleteStatement (ts ++ [terminator])) ≠
      answer .delete (deleteStatement ts) := by
  cases h with
  | table isFrom =>
    have herror : deleteStatement ts = .error .tableExpected := by
      simp only [deleteStatement, isFrom]
    rw [herror, deleteStatement_of_from (afterWord?_append isFrom [terminator])]
    exact answer_ok_ne_error rfl _
  | @filterValue rest table isFrom breaksOff =>
    obtain ⟨before, last, hread, hwith⟩ := conditionClause_of_awaitsValue breaksOff
    have isFrom' : afterWord? "FROM" (ts ++ [terminator]) =
      some (table :: (rest ++ [terminator])) := afterWord?_append isFrom [terminator]
    rw [deleteStatement_of_from isFrom, deleteStatement_of_from isFrom', whereClause, whereClause,
      hread, hwith]
    intro h
    exact append_singleton_ne before last (congrArg Query.conditions h)

end Sql

namespace Query

open Sql (Token)

theorem ofTokens_cons (first : Token) (ts : List Token) :
    ofTokens (first :: ts) =
      Sql.answer (StatementKind.ofWord first.text) (Sql.statement first ts) := by
  rw [ofTokens]
  cases Sql.statement first ts <;> rfl

/-- **The semicolon at the end.** With `;` at its end a statement is the same in every clause, and
is refused for the same reason, exactly if it does not end where the next token is taken whatever
it is; there `;` is taken for what is missing. -/
theorem ofTokens_append_terminator_iff (first : Token) (ts : List Token) :
    ofTokens (first :: ts ++ [Sql.terminator]) = ofTokens (first :: ts) ↔
      ¬ Sql.AwaitsWord first ts := by
  rw [List.cons_append, ofTokens_cons, ofTokens_cons, Sql.statement, Sql.statement, Sql.AwaitsWord]
  cases StatementKind.ofWord first.text with
  | select =>
    exact ⟨fun h hawaits => hawaits.answer_ne h,
      fun h => congrArg _ (Sql.selectStatement_append_terminator h)⟩
  | insert =>
    exact ⟨fun h hawaits => hawaits.answer_ne h,
      fun h => congrArg _ (Sql.insertStatement_append_terminator h)⟩
  | update =>
    exact ⟨fun h hawaits => hawaits.answer_ne h,
      fun h => congrArg _ (Sql.updateStatement_append_terminator h)⟩
  | delete =>
    exact ⟨fun h hawaits => hawaits.answer_ne h,
      fun h => congrArg _ (Sql.deleteStatement_append_terminator h)⟩
  | unknown => exact ⟨fun _ hawaits => hawaits, fun _ => rfl⟩

/-- A statement from its words. -/
def ofWords (words : List String) : List Token := words.map (⟨·⟩)

/-- Where one is awaited, the semicolon is a table, an alias, a column of ON and the value of a
condition. -/
theorem ofTokens_terminator_taken :
    (ofTokens (ofWords ["DELETE", "FROM"]) = .invalid .delete "table name expected" ∧
        ofTokens (ofWords ["DELETE", "FROM"] ++ [Sql.terminator]) =
          { kind := .delete, tables := [";"] }) ∧
      (ofTokens (ofWords ["SELECT", "name", "FROM", "users", "AS"]) =
          .invalid .select "alias expected after AS" ∧
        ofTokens (ofWords ["SELECT", "name", "FROM", "users", "AS"] ++ [Sql.terminator]) =
          { kind := .select, tables := ["users"], columns := ["name"],
            aliases := .ofList [(";", "users")] }) ∧
      (ofTokens (ofWords ["SELECT", "*", "FROM", "a", "JOIN", "b", "ON", "x", "="]) =
          .invalid .select "incomplete ON clause" ∧
        ofTokens (ofWords ["SELECT", "*", "FROM", "a", "JOIN", "b", "ON", "x", "="] ++
            [Sql.terminator]) =
          { kind := .select, tables := ["a", "b"], columns := ["*"],
            joins := [⟨.inner, "b", none, ⟨"x", "=", ";"⟩⟩] }) ∧
      ofTokens (ofWords ["SELECT", "*", "FROM", "a", "WHERE", "x", "="]) =
          { kind := .select, tables := ["a"], columns := ["*"] } ∧
        ofTokens (ofWords ["SELECT", "*", "FROM", "a", "WHERE", "x", "="] ++ [Sql.terminator]) =
          { kind := .select, tables := ["a"], columns := ["*"],
            conditions := [⟨"x", .eq, .text ";", none⟩] } := by
  decide +kernel

end Query
end DocumentSql
