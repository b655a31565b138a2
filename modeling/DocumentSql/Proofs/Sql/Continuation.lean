/-
# Reading on

What a clause has read does not depend on the tokens behind the one where it
stopped: with further tokens at the end it reads the same and leaves these as well.
A clause that stopped at the end of the tokens reads the same if what is added
begins with `;`, or is nothing. So the part of a SELECT in front of WHERE is read
alike whatever follows it (`Sql.ReadsHead.append`), and so are the conditions in
front of a token, if this one is not taken for the word between two conditions
(`Sql.ReadsUpTo`, `Sql.conditions_of_readsUpTo`).

Key definitions: `Sql.StopsAlike`, `Sql.ReadsHead`, `Sql.selectTail`, `Sql.ReadsUpTo`.
Key theorems: `Sql.tableRefs_append`, `Sql.joinClauses_append`,
`Sql.ReadsHead.append`, `Sql.selectStatement_of_head`,
`Sql.conditions_of_readsUpTo`.
-/
import DocumentSql.Proofs.Sql.Parentheses

namespace DocumentSql
namespace Sql

/-- A clause that leaves `behind` also stops there with `more` at the end: a token is there, or what
is added ends every clause. -/
def StopsAlike (behind more : List Token) : Prop := behind ≠ [] ∨ atBoundary [] more = true

variable {ts behind more : List Token}

/-! ### Keywords and aliases -/

theorem afterWord?_append {keyword : String} {rest : List Token}
    (h : afterWord? keyword ts = some rest) (more : List Token) :
    afterWord? keyword (ts ++ more) = some (rest ++ more) := by
  cases ts with
  | nil => cases h
  | cons t ts =>
    rw [afterWord?] at h
    split at h
    · rename_i hword
      obtain rfl := Option.some.inj h
      exact afterWord?_of_isWord hword _
    · cases h

/-- Whether a clause ends in front of a token depends on this token alone. -/
theorem atBoundary_cons_append {stops : List String} {t : Token}
    (h : ¬ atBoundary stops (t :: ts) = true) (more : List Token) :
    atBoundary stops (t :: (ts ++ more)) = false := Bool.eq_false_iff.mpr h

theorem ne_nil_of_afterWord? {keyword : String} {rest : List Token}
    (h : afterWord? keyword ts = some rest) : ts ≠ [] := by
  rintro rfl
  cases h

theorem isWord_of_afterWord?_eq_none {keyword : String} {t : Token}
    (h : afterWord? keyword (t :: ts) = none) : t.isWord keyword = false := by
  rw [afterWord?] at h
  split at h
  · cases h
  · rename_i hword
    simpa using hword

theorem afterWord?_append_eq_none {keyword : String} (h : afterWord? keyword ts = none)
    (hmore : StopsAlike ts more) (hk : Text.sameWord ";" keyword = false) :
    afterWord? keyword (ts ++ more) = none := by
  cases ts with
  | nil =>
    exact afterWord?_of_atBoundary (hmore.resolve_left fun hne => hne rfl)
      (List.forall_mem_singleton.mpr hk)
  | cons t ts =>
    exact afterWord?_of_isWord_eq_false (isWord_of_afterWord?_eq_none h) _

theorem callAlias_append {aliasName : Option String} (h : callAlias ts = .ok (aliasName, behind))
    (hmore : StopsAlike behind more) :
    callAlias (ts ++ more) = .ok (aliasName, behind ++ more) := by
  unfold callAlias at h
  split at h
  · rename_i hnone
    obtain ⟨rfl, rfl⟩ := Prod.mk.inj (Except.ok.inj h)
    rw [callAlias, afterWord?_append_eq_none hnone hmore (by decide)]
  · cases h
  · rename_i hsome
    obtain ⟨rfl, rfl⟩ := Prod.mk.inj (Except.ok.inj h)
    rw [callAlias, afterWord?_append hsome more]
    rfl

theorem tableAlias_append {aliasName : Option String} (h : tableAlias ts = .ok (aliasName, behind))
    (hmore : StopsAlike behind more) :
    tableAlias (ts ++ more) = .ok (aliasName, behind ++ more) := by
  unfold tableAlias at h
  split at h
  · cases h
  · rename_i hsome
    obtain ⟨rfl, rfl⟩ := Prod.mk.inj (Except.ok.inj h)
    simp only [tableAlias, afterWord?_append hsome more, List.cons_append]
  · rename_i hnone
    cases ts with
    | nil =>
      obtain ⟨rfl, rfl⟩ := Prod.mk.inj (Except.ok.inj h)
      have hstop : atBoundary fromStop more = true :=
        atBoundary_mono (fun _ hm => absurd hm List.not_mem_nil)
          (hmore.resolve_left fun hne => hne rfl)
      exact tableAlias_of_separates (.inl hstop)
    | cons t ts =>
      have has : afterWord? "AS" (t :: (ts ++ more)) = none :=
        afterWord?_of_isWord_eq_false (isWord_of_afterWord?_eq_none hnone) _
      have hstop : atBoundary fromStop (t :: (ts ++ more)) = atBoundary fromStop (t :: ts) := rfl
      simp only [List.cons_append, tableAlias, has, hstop]
      simp only at h
      split at h
      all_goals
        rename_i hends
        obtain ⟨rfl, rfl⟩ := Prod.mk.inj (Except.ok.inj h)
        simp only [hends, Bool.false_eq_true, if_false, if_true, List.cons_append]

/-! ### The select list and the tables -/

theorem calledFunction?_append (t : Token) (hne : ts ≠ []) (more : List Token) :
    calledFunction? t (ts ++ more) = calledFunction? t ts := by
  cases ts with
  | nil => exact absurd rfl hne
  | cons p ts => rfl

/-- A token that calls a function does so by the parenthesis behind it, whatever follows that. -/
theorem exists_opening {t : Token} {function : AggregateFunction}
    (h : calledFunction? t ts = some function) :
    ∃ p us, ts = p :: us ∧ ∀ vs, calledFunction? t (p :: vs) = some function := by
  cases ts with
  | nil => cases h
  | cons p us => exact ⟨p, us, rfl, fun _ => h⟩

theorem untilClose_append {inner : List Token} (h : untilClose 0 ts = some (inner, behind))
    (more : List Token) : untilClose 0 (ts ++ more) = some (inner, behind ++ more) := by
  obtain ⟨close, hc, rfl, hinner⟩ := untilClose_eq_some_iff.mp h
  rw [List.append_assoc, List.cons_append]
  exact hinner.untilClose_eq hc _

/-- One step of the select list, at a column. -/
theorem selectList_column {t : Token} {rest : List Token} (hfrom : t.isWord "FROM" = false)
    (hcomma : t.isChar ',' = false) (hcall : calledFunction? t rest = none) :
    selectList (t :: rest) =
      (selectList rest).map fun (items, behind) => (.column t.text :: items, behind) := by
  rw [selectList.eq_def]
  simp only [hfrom, hcomma, Bool.false_eq_true, if_false, hcall]

theorem selectList_nil : selectList [] = .ok ([], []) := by
  rw [selectList.eq_def]

/-- A step that succeeds in front of a reading does so on a reading of the rest. -/
theorem exists_of_map_eq_ok {α β : Type} {r : Except SyntaxError (Reading α)} {f : α → β} {y : β}
    (h : (r.map fun (x, behind) => (f x, behind)) = .ok (y, behind)) :
    ∃ x, r = .ok (x, behind) ∧ y = f x := by
  cases r with
  | error e => cases h
  | ok reading =>
    obtain ⟨rfl, rfl⟩ := Prod.mk.inj (Except.ok.inj h)
    exact ⟨reading.1, rfl, rfl⟩

/-- A clause that leaves tokens was given some, if it reads nothing from nothing. -/
theorem ne_nil_of_read {α : Type} {read : List Token → Except SyntaxError (Reading α)} {none x : α}
    (hnil : read [] = .ok (none, [])) (h : read ts = .ok (x, behind)) (hne : behind ≠ []) :
    ts ≠ [] := by
  rintro rfl
  rw [hnil] at h
  exact hne (Prod.mk.inj (Except.ok.inj h)).2.symm

theorem StopsAlike.of_read {α : Type} {read : List Token → Except SyntaxError (Reading α)}
    {none x : α} (hnil : read [] = .ok (none, [])) (h : read ts = .ok (x, behind))
    (hmore : StopsAlike behind more) : StopsAlike ts more :=
  hmore.imp_left (ne_nil_of_read hnil h)

/-- A select list that ends at FROM reads the same whatever follows. -/
theorem selectList_append {items : List SelectItem} (h : selectList ts = .ok (items, behind))
    (hne : behind ≠ []) (more : List Token) :
    selectList (ts ++ more) = .ok (items, behind ++ more) := by
  fun_induction selectList ts generalizing items behind with
  | case1 =>
    obtain ⟨-, rfl⟩ := Prod.mk.inj (Except.ok.inj h)
    exact absurd rfl hne
  | case2 t rest hfrom =>
    obtain ⟨rfl, rfl⟩ := Prod.mk.inj (Except.ok.inj h)
    rw [List.cons_append, selectList.eq_def]
    simp only [hfrom, if_true]
  | case3 t rest hfrom hcomma ih =>
    have hread := ih h hne
    rw [List.cons_append, selectList.eq_def]
    simp only [hfrom, hcomma, if_true, Bool.false_eq_true, if_false]
    exact hread
  | case4 t rest hfrom hcomma hcall ih =>
    obtain ⟨items, hread, rfl⟩ := exists_of_map_eq_ok h
    have hrest : rest ≠ [] := ne_nil_of_read selectList_nil hread hne
    rw [List.cons_append, selectList_column (by simpa using hfrom) (by simpa using hcomma)
      ((calledFunction?_append t hrest more).trans hcall), ih hread hne]
    rfl
  | case5 => cases h
  | case6 => cases h
  | case7 t rest hfrom hcomma function hcall inner afterCall hclose aliasName afterAlias halias
      ih =>
    obtain ⟨items, hread, rfl⟩ := exists_of_map_eq_ok h
    have hafter : StopsAlike afterAlias more := .of_read selectList_nil hread (.inl hne)
    obtain ⟨p, rest, rfl, hopens⟩ := exists_opening hcall
    rw [List.drop_one, List.tail_cons] at hclose
    rw [List.cons_append, List.cons_append, selectList_call (by simpa using hfrom)
      (by simpa using hcomma) (hopens _) (untilClose_append hclose more)
      (callAlias_append halias hafter), ih hread hne]
    rfl

theorem tableRefs_nil : tableRefs [] = .ok ([], []) := by
  rw [tableRefs.eq_def]

/-- The tables of FROM are read the same. -/
theorem tableRefs_append {refs : List TableRef} (h : tableRefs ts = .ok (refs, behind))
    (hmore : StopsAlike behind more) : tableRefs (ts ++ more) = .ok (refs, behind ++ more) := by
  fun_induction tableRefs ts generalizing refs behind with
  | case1 =>
    obtain ⟨rfl, rfl⟩ := Prod.mk.inj (Except.ok.inj h)
    have hstop : atBoundary fromStop more = true :=
      atBoundary_mono (fun _ hm => absurd hm List.not_mem_nil)
        (hmore.resolve_left fun hne => hne rfl)
    exact tableRefs_of_atBoundary hstop
  | case2 t rest hstop =>
    obtain ⟨rfl, rfl⟩ := Prod.mk.inj (Except.ok.inj h)
    exact tableRefs_of_atBoundary hstop
  | case3 t rest hstop hcomma ih =>
    rw [List.cons_append, tableRefs.eq_def]
    simp only [atBoundary_cons_append hstop, hcomma, Bool.false_eq_true, if_false, if_true]
    exact ih h hmore
  | case4 => cases h
  | case5 t rest hstop hcomma aliasName afterAlias halias ih =>
    obtain ⟨refs, hread, rfl⟩ := exists_of_map_eq_ok h
    have hafter : StopsAlike afterAlias more := .of_read tableRefs_nil hread hmore
    rw [List.cons_append, tableRefs_cons (atBoundary_cons_append hstop more)
      (by simpa using hcomma) (tableAlias_append halias hafter), ih hread hmore]
    rfl

/-! ### Joins -/

theorem skipWord_append {keyword : String} (hmore : StopsAlike ts more)
    (hk : Text.sameWord ";" keyword = false) :
    skipWord keyword (ts ++ more) = skipWord keyword ts ++ more := by
  unfold skipWord
  cases h : afterWord? keyword ts with
  | none => rw [afterWord?_append_eq_none h hmore hk]; rfl
  | some rest => rw [afterWord?_append h more]; rfl

theorem joinKind_append {t : Token} {kind : JoinKind} (h : joinKind t ts = .ok (kind, behind))
    (more : List Token) : joinKind t (ts ++ more) = .ok (kind, behind ++ more) := by
  unfold joinKind at h ⊢
  split at h
  · rename_i hjoin
    obtain ⟨rfl, rfl⟩ := Prod.mk.inj (Except.ok.inj h)
    rw [if_pos hjoin]
  · rename_i hjoin
    simp only at h
    split at h
    · rename_i hafter
      obtain ⟨rfl, rfl⟩ := Prod.mk.inj (Except.ok.inj h)
      have hne : ts ≠ [] := by
        rintro rfl
        cases hafter
      rw [if_neg hjoin, skipWord_append (.inl hne) (by decide), afterWord?_append hafter more]
    · cases h

theorem atConnector_append (hmore : StopsAlike ts more) :
    atConnector (ts ++ more) = atConnector ts := by
  cases ts with
  | nil =>
    exact (connector_of_atBoundary (hmore.resolve_left fun hne => hne rfl) (by decide)).2
  | cons t ts => rfl

theorem onClause_append {table : String} {on : JoinOn} (h : onClause table ts = .ok (on, behind))
    (hmore : StopsAlike behind more) : onClause table (ts ++ more) = .ok (on, behind ++ more) := by
  unfold onClause at h
  split at h
  · cases h
  · rename_i left operator right rest hafter
    split at h
    · cases h
    · rename_i hconnector
      obtain ⟨rfl, rfl⟩ := Prod.mk.inj (Except.ok.inj h)
      have hnone : atConnector (rest ++ more) = false := by
        rw [atConnector_append hmore]
        simpa using hconnector
      simp only [onClause, afterWord?_append hafter more, List.cons_append, hnone,
        Bool.false_eq_true, if_false]
  · cases h

/-- How a join whose kind has been read goes on: with a table, its alias, and ON. -/
theorem joinTail_eq_ok {kind : JoinKind} {join : Join} (h : joinTail kind ts = .ok (join, behind)) :
    ∃ t rest aliasName behindAlias on, ts = t :: rest ∧ atBoundary fromStop ts = false ∧
      tableAlias rest = .ok (aliasName, behindAlias) ∧
      onClause t.text behindAlias = .ok (on, behind) ∧ join = ⟨kind, t.text, aliasName, on⟩ := by
  unfold joinTail at h
  split at h
  · cases h
  · rename_i t rest
    split at h
    · cases h
    · rename_i hstop
      simp only [bind, Except.bind, pure, Except.pure] at h
      split at h
      · cases h
      · rename_i named halias
        split at h
        · cases h
        · rename_i on hon
          obtain ⟨rfl, rfl⟩ := Prod.mk.inj (Except.ok.inj h)
          exact ⟨t, rest, named.1, named.2, on.1, rfl, by simpa using hstop, halias, hon, rfl⟩

theorem joinTail_append {kind : JoinKind} {join : Join} (h : joinTail kind ts = .ok (join, behind))
    (hmore : StopsAlike behind more) : joinTail kind (ts ++ more) = .ok (join, behind ++ more) := by
  obtain ⟨t, rest, aliasName, behindAlias, on, rfl, hstop, halias, hon, rfl⟩ := joinTail_eq_ok h
  have hafter : StopsAlike behindAlias more := by
    refine .inl ?_
    rintro rfl
    cases hon
  have hstop : atBoundary fromStop (t :: (rest ++ more)) = false := hstop
  simp only [joinTail, List.cons_append, hstop, Bool.false_eq_true, if_false, bind, Except.bind,
    tableAlias_append halias hafter, onClause_append hon hmore, pure, Except.pure]

theorem joinClause_append {t : Token} {join : Join} (h : joinClause t ts = .ok (join, behind))
    (hmore : StopsAlike behind more) : joinClause t (ts ++ more) = .ok (join, behind ++ more) := by
  simp only [joinClause, bind, Except.bind] at h ⊢
  cases hkind : joinKind t ts with
  | error e => rw [hkind] at h; cases h
  | ok reading =>
    rw [hkind] at h
    rw [joinKind_append hkind more]
    exact joinTail_append h hmore

theorem joinClauses_nil : joinClauses [] = .ok ([], []) := by
  rw [joinClauses.eq_def]

/-- The joins are read the same. -/
theorem joinClauses_append {joins : List Join} (h : joinClauses ts = .ok (joins, behind))
    (hmore : StopsAlike behind more) : joinClauses (ts ++ more) = .ok (joins, behind ++ more) := by
  fun_induction joinClauses ts generalizing joins behind with
  | case1 =>
    obtain ⟨rfl, rfl⟩ := Prod.mk.inj (Except.ok.inj h)
    have hstop : atBoundary [] more = true := hmore.resolve_left fun hne => hne rfl
    refine joinClauses_of_head? fun t ht => ?_
    obtain ⟨us, rfl⟩ := List.head?_eq_some_iff.mp ht
    rw [Token.isAnyWord, List.any_eq_false]
    intro word hm
    rw [isWord_of_atBoundary hstop]
    · exact Bool.false_ne_true
    · revert word
      decide
  | case2 => cases h
  | case3 t rest hstart join behindJoin hjoin ih =>
    obtain ⟨joins, hread, rfl⟩ := exists_of_map_eq_ok h
    have hafter : StopsAlike behindJoin more := .of_read joinClauses_nil hread hmore
    rw [List.cons_append, joinClauses_cons hstart (joinClause_append hjoin hafter), ih hread hmore]
    rfl
  | case4 t rest hstart =>
    obtain ⟨rfl, rfl⟩ := Prod.mk.inj (Except.ok.inj h)
    refine joinClauses_of_head? fun u hu => ?_
    obtain rfl := Option.some.inj hu
    simpa using hstart

/-! ### The part of a SELECT in front of WHERE -/

/-- What a SELECT reads up to its joins, and the tokens behind them. -/
inductive ReadsHead : List Token → List SelectItem → List TableRef → List Join → List Token → Prop
  | intro {ts behindItems behindFrom behindRefs behind : List Token} {items : List SelectItem}
      {refs : List TableRef} {joins : List Join}
      (readsItems : selectList ts = .ok (items, behindItems))
      (isFrom : afterWord? "FROM" behindItems = some behindFrom)
      (readsRefs : tableRefs behindFrom = .ok (refs, behindRefs)) (nonempty : refs ≠ [])
      (readsJoins : joinClauses behindRefs = .ok (joins, behind)) :
      ReadsHead ts items refs joins behind

/-- The SELECT whose conditions have been read, from the tokens behind WHERE. -/
def selectTail (items : List SelectItem) (refs : List TableRef) (joins : List Join)
    (conditions : List Condition) (ts : List Token) : Except SyntaxError Query := do
  let (groupBy, ts) ← groupByClause ts
  let (having, ts) ← havingClause ts
  let (orderBy, ts) ← orderByClause ts
  let (limit, ts) := countClause "LIMIT" ts
  let (offset, _) := countClause "OFFSET" ts
  return {
    kind := .select
    tables := distinct (refs.map (·.table) ++ joins.map (·.table))
    columns := items.map (·.outputName)
    aggregates := items.filterMap (·.aggregate?)
    aliases := aliasMap refs joins
    conditions, joins, groupBy, having, orderBy, limit, offset }

section Head

variable {items : List SelectItem} {refs : List TableRef} {joins : List Join}

theorem ReadsHead.append (h : ReadsHead ts items refs joins behind)
    (hmore : StopsAlike behind more) :
    ReadsHead (ts ++ more) items refs joins (behind ++ more) := by
  obtain ⟨readsItems, isFrom, readsRefs, nonempty, readsJoins⟩ := h
  have hitems := ne_nil_of_afterWord? isFrom
  have hrefs : StopsAlike _ more := .of_read joinClauses_nil readsJoins hmore
  exact .intro (selectList_append readsItems hitems more) (afterWord?_append isFrom more)
    (tableRefs_append readsRefs hrefs) nonempty (joinClauses_append readsJoins hmore)

/-- Behind its joins a SELECT is read from the conditions on. -/
theorem selectStatement_of_head (h : ReadsHead ts items refs joins behind) :
    selectStatement ts = (whereClause behind).bind fun reading =>
      selectTail items refs joins reading.1 reading.2 := by
  obtain ⟨readsItems, isFrom, readsRefs, nonempty, readsJoins⟩ := h
  have hempty : refs.isEmpty = false := by simpa using nonempty
  unfold selectStatement selectTail
  simp only [bind, Except.bind, readsItems, isFrom, readsRefs, hempty, readsJoins,
    Bool.false_eq_true, if_false]

/-- The conditions have no part in what is read behind them. -/
theorem selectTail_conditions (conditions : List Condition) (ts : List Token) :
    selectTail items refs joins conditions ts =
      (selectTail items refs joins [] ts).map fun q => { q with conditions } := by
  unfold selectTail
  simp only [bind, Except.bind, pure, Except.pure]
  cases groupByClause ts with
  | error e => rfl
  | ok groupBy =>
    cases hhaving : havingClause groupBy.2 with
    | error e => simp only [hhaving]; rfl
    | ok having =>
      cases horder : orderByClause having.2 with
      | error e => simp only [hhaving, horder]; rfl
      | ok orderBy => simp only [hhaving, horder]; rfl

end Head

/-! ### Conditions in front of a token -/

/-- The value behind an operator is read the same. -/
theorem conditionValue_append {comparison : Comparison} {value : Token} {v : Scalar}
    (h : conditionValue comparison value ts = .ok (v, behind)) (more : List Token) :
    conditionValue comparison value (ts ++ more) = .ok (v, behind ++ more) := by
  unfold conditionValue at h ⊢
  split at h
  · rename_i hlist
    rw [if_pos hlist]
    split at h
    · cases h
    · rename_i hclose
      obtain ⟨rfl, rfl⟩ := Prod.mk.inj (Except.ok.inj h)
      simp only [untilClose_append hclose more]
  · rename_i hlist
    obtain ⟨rfl, rfl⟩ := Prod.mk.inj (Except.ok.inj h)
    rw [if_neg hlist]

/-- A value that fails spoils the conditions. -/
theorem conditions_of_error {stops : List String} {column operator value : Token}
    {rest : List Token} {e : SyntaxError}
    (hstop : atBoundary stops (column :: operator :: value :: rest) = false)
    (hvalue : conditionValue (Comparison.ofOperator operator.text) value rest = .error e) :
    conditions stops (column :: operator :: value :: rest) = .error e := by
  rw [conditions.eq_def]
  simp only [hstop, Bool.false_eq_true, if_false]
  split
  · rename_i herror
    rw [hvalue] at herror
    obtain rfl := Except.error.inj herror
    rfl
  · rename_i hok
    rw [hvalue] at hok
    cases hok

theorem connector_append {word : Option Connector} (hne : ts ≠ [])
    (h : connector ts = (word, behind)) (more : List Token) :
    connector (ts ++ more) = (word, behind ++ more) := by
  cases ts with
  | nil => exact absurd rfl hne
  | cons t ts =>
    unfold connector at h ⊢
    simp only [List.cons_append] at h ⊢
    cases hword : Connector.ofWord? t.text with
    | none =>
      rw [hword] at h
      obtain ⟨rfl, rfl⟩ := Prod.mk.inj h
      rfl
    | some c =>
      rw [hword] at h
      obtain ⟨rfl, rfl⟩ := Prod.mk.inj h
      rfl

/-- The conditions that are read from the tokens up to their end if `next` comes behind them. -/
inductive ReadsUpTo (stops : List String) (next : Token) : List Token → List Condition → Prop
  | nil : ReadsUpTo stops next [] []
  | cons {column operator value : Token} {rest behindValue behind : List Token} {v : Scalar}
      {word : Option Connector} {more : List Condition}
      (inside : atBoundary stops [column] = false)
      (readsValue : conditionValue (Comparison.ofOperator operator.text) value rest =
        .ok (v, behindValue))
      (readsConnector : connector (behindValue ++ [next]) = (word, behind ++ [next]))
      (readsMore : ReadsUpTo stops next behind more) :
      ReadsUpTo stops next (column :: operator :: value :: rest)
        (⟨column.text, Comparison.ofOperator operator.text, v, word⟩ :: more)

/-- The conditions in front of a token are read first, whatever follows it. -/
theorem conditions_of_readsUpTo {stops : List String} {next : Token} {filter : List Token}
    {cs : List Condition} (h : ReadsUpTo stops next filter cs) (tail : List Token) :
    conditions stops (filter ++ next :: tail) =
      (conditions stops (next :: tail)).map fun (more, behind) => (cs ++ more, behind) := by
  induction h with
  | nil =>
    rw [List.nil_append]
    cases conditions stops (next :: tail) <;> rfl
  | @cons column operator value rest behindValue behind v word more inside readsValue
      readsConnector _ ih =>
    have hinside : atBoundary stops
        (column :: operator :: value :: (rest ++ next :: tail)) = false := inside
    have hne : behindValue ++ [next] ≠ [] :=
      List.append_ne_nil_of_right_ne_nil _ (List.cons_ne_nil _ _)
    have hconnector := connector_append hne readsConnector tail
    rw [List.append_assoc, List.append_assoc, List.singleton_append] at hconnector
    rw [List.cons_append, List.cons_append, List.cons_append,
      conditions_cons hinside (conditionValue_append readsValue (next :: tail)), hconnector, ih]
    cases conditions stops (next :: tail) <;> rfl

end Sql
end DocumentSql
