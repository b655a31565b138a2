/-
# A list behind IN stays within its parentheses

Behind IN an open parenthesis stands for all the tokens up to its close, whatever
they are: words that end clauses, words that join conditions, `;` and more
parentheses with their matches. The statement goes on behind the close as it would
behind a single value, so only the value of the condition tells the two apart
(`Query.ofTokens_inList`). A parenthesis without a close spoils the statement.

Key definitions: `Sql.LeavesAtCondition`, `Query.DifferInValue`.
Key theorems: `Sql.ofTokens_of_leaves`, `Query.ofTokens_inList`.
-/
import DocumentSql.Proofs.Sql.Continuation

namespace DocumentSql
namespace Sql

/-- The tokens of a SELECT up to a place within WHERE where a condition begins, if `next` comes
there, with the conditions in front of it. -/
inductive LeavesAtCondition (next : Token) : List Token → List Condition → Prop
  | intro {first whereWord : Token} {ts filter : List Token} {items : List SelectItem}
      {refs : List TableRef} {joins : List Join} {before : List Condition}
      (isSelect : StatementKind.ofWord first.text = .select)
      (readsHead : ReadsHead ts items refs joins (whereWord :: filter))
      (isWhere : whereWord.isWord "WHERE" = true)
      (readsUpTo : ReadsUpTo whereStop next filter before) :
      LeavesAtCondition next (first :: ts) before

end Sql

namespace Query

/-- Two statements are refused for the same reason, or differ in nothing but the value of the
condition behind the ones in `before`. -/
inductive DifferInValue (before : List Condition) (column : String) (comparison : Comparison)
    (v w : Scalar) : Query → Query → Prop
  | invalid (kind : StatementKind) (message : String) :
      DifferInValue before column comparison v w (.invalid kind message) (.invalid kind message)
  | valid {q : Query} (isValid : q.isValid = true) (connector : Option Connector)
      (after : List Condition) : DifferInValue before column comparison v w
        { q with conditions := before ++ ⟨column, comparison, v, connector⟩ :: after }
        { q with conditions := before ++ ⟨column, comparison, w, connector⟩ :: after }

end Query

namespace Sql

theorem isValid_of_selectTail {items : List SelectItem} {refs : List TableRef} {joins : List Join}
    {cs : List Condition} {ts : List Token} {q : Query}
    (h : selectTail items refs joins cs ts = .ok q) : q.isValid = true := by
  unfold selectTail at h
  simp only [bind, Except.bind, pure, Except.pure] at h
  split at h
  · cases h
  split at h
  · cases h
  split at h
  · cases h
  obtain rfl := Except.ok.inj h
  rfl

/-- The statement, from the condition on. -/
theorem ofTokens_of_leaves {next : Token} {ts : List Token} {before : List Condition}
    (h : LeavesAtCondition next ts before) :
    ∃ items refs joins, ∀ tail, Query.ofTokens (ts ++ next :: tail) =
      match (conditions whereStop (next :: tail)).bind fun reading =>
          selectTail items refs joins (before ++ reading.1) reading.2 with
      | .ok q => q
      | .error e => .invalid .select e.message := by
  obtain @⟨first, whereWord, ts, filter, items, refs, joins, before, isSelect, readsHead, isWhere,
    readsUpTo⟩ := h
  refine ⟨items, refs, joins, fun tail => ?_⟩
  have hhead : ReadsHead (ts ++ next :: tail) items refs joins
      (whereWord :: filter ++ next :: tail) := readsHead.append (.inl (List.cons_ne_nil _ _))
  have hwhere : whereClause (whereWord :: filter ++ next :: tail) =
      conditions whereStop (filter ++ next :: tail) := by
    simp only [whereClause, conditionClause, List.cons_append, afterWord?_of_isWord isWhere]
  rw [List.cons_append, Query.ofTokens, statement, isSelect]
  simp only [selectStatement_of_head hhead, hwhere, conditions_of_readsUpTo readsUpTo]
  cases conditions whereStop (next :: tail) <;> rfl

/-- A list is read as a value, from its parenthesis to the close. -/
theorem conditionValue_list {opening close : Token} (hopen : opening.isChar '(' = true)
    {inner : List Token} (hinner : IsBalanced inner) (hclose : close.isChar ')' = true)
    (behind : List Token) :
    conditionValue .inList opening (inner ++ close :: behind) =
      .ok (.text (joinTexts inner), behind) := by
  simp only [conditionValue, hopen, decide_true, Bool.and_true, if_true,
    hinner.untilClose_eq hclose behind]

theorem conditionValue_open {opening : Token} (hopen : opening.isChar '(' = true)
    {rest : List Token} (hnone : untilClose 0 rest = none) :
    conditionValue .inList opening rest = .error .unclosedList := by
  simp only [conditionValue, hopen, decide_true, Bool.and_true, if_true, hnone]

theorem conditionValue_single {comparison : Comparison} {t : Token} (ht : t.isChar '(' = false)
    (behind : List Token) : conditionValue comparison t behind = .ok (t.scalar, behind) := by
  rw [conditionValue, ht, Bool.and_false, if_neg Bool.false_ne_true]

end Sql

namespace Query

open Sql (Token)

variable {before : List Condition} {ts : List Token} {column operator : Token}

/-- Behind two ways to write the value of a condition the statement is the same. -/
theorem differInValue_of_leaves (h : Sql.LeavesAtCondition column ts before)
    (hinside : Sql.atBoundary Sql.whereStop [column] = false) {v w : Scalar}
    {first second : Token} {rest rest' behind : List Token}
    (hv : Sql.conditionValue (Comparison.ofOperator operator.text) first rest = .ok (v, behind))
    (hw : Sql.conditionValue (Comparison.ofOperator operator.text) second rest' = .ok (w, behind)) :
    DifferInValue before column.text (Comparison.ofOperator operator.text) v w
      (ofTokens (ts ++ column :: operator :: first :: rest))
      (ofTokens (ts ++ column :: operator :: second :: rest')) := by
  obtain ⟨items, refs, joins, hread⟩ := Sql.ofTokens_of_leaves h
  have hfirst : Sql.atBoundary Sql.whereStop (column :: operator :: first :: rest) = false :=
    hinside
  have hsecond : Sql.atBoundary Sql.whereStop (column :: operator :: second :: rest') = false :=
    hinside
  rw [hread, hread, Sql.conditions_cons hfirst hv, Sql.conditions_cons hsecond hw]
  cases Sql.conditions Sql.whereStop (Sql.connector behind).2 with
  | error e => exact .invalid _ _
  | ok reading =>
    obtain ⟨after, tail⟩ := reading
    simp only [Except.map, Except.bind]
    rw [Sql.selectTail_conditions (before ++ _ :: after),
      Sql.selectTail_conditions (before ++ _ :: after)]
    cases htail : Sql.selectTail items refs joins [] tail with
    | error e => exact .invalid _ _
    | ok q => exact .valid (Sql.isValid_of_selectTail htail) _ after

/-- **A list stays within its parentheses.** Behind a column and IN, balanced tokens in parentheses
are the value of the condition, as their texts without blanks, and the rest of the statement is
read as it is behind a single value. If the parenthesis is never closed, the statement is
invalid. -/
theorem ofTokens_inList (h : Sql.LeavesAtCondition column ts before)
    (hinside : Sql.atBoundary Sql.whereStop [column] = false) {inWord opening : Token}
    (hin : inWord.isWord "IN" = true) (hopen : opening.isChar '(' = true) :
    (∀ (inner behind : List Token) (close single : Token), Sql.IsBalanced inner →
      close.isChar ')' = true → single.isChar '(' = false →
        DifferInValue before column.text .inList (.text (Sql.joinTexts inner)) single.scalar
          (ofTokens (ts ++ column :: inWord :: opening :: (inner ++ close :: behind)))
          (ofTokens (ts ++ column :: inWord :: single :: behind))) ∧
    ∀ rest : List Token, (∀ inner close behind, rest = inner ++ close :: behind →
      close.isChar ')' = true → ¬ Sql.IsBalanced inner) →
        ofTokens (ts ++ column :: inWord :: opening :: rest) =
          .invalid .select SyntaxError.unclosedList.message := by
  have hcomparison : Comparison.ofOperator inWord.text = .inList := Sql.ofOperator_in hin
  refine ⟨fun inner behind close single hinner hclose hsingle => ?_, fun rest hnever => ?_⟩
  · rw [← hcomparison]
    refine differInValue_of_leaves h hinside ?_ (Sql.conditionValue_single hsingle behind)
    rw [hcomparison]
    exact Sql.conditionValue_list hopen hinner hclose behind
  · obtain ⟨items, refs, joins, hread⟩ := Sql.ofTokens_of_leaves h
    have hvalue : Sql.conditionValue (Comparison.ofOperator inWord.text) opening rest =
        .error .unclosedList := by
      rw [hcomparison]
      exact Sql.conditionValue_open hopen (Sql.untilClose_eq_none_iff.mpr hnever)
    have hstop : Sql.atBoundary Sql.whereStop (column :: inWord :: opening :: rest) = false :=
      hinside
    rw [hread, Sql.conditions_of_error hstop hvalue]
    rfl

/-- A statement up to its second condition. -/
def beforeList : List Token :=
  ["SELECT", "name", "FROM", "users", "WHERE", "age", ">", "3", "AND"].map (⟨·⟩)

/-- Words that end clauses, a word that joins conditions, and parentheses. -/
def listed : List Token := ["1", ",", "(", "ORDER", ")", "AND", "JOIN", ";"].map (⟨·⟩)

theorem isBalanced_listed : Sql.IsBalanced listed := Sql.isBalanced_iff.mpr (by decide)

theorem leavesAtCondition_beforeList :
    Sql.LeavesAtCondition ⟨"id"⟩ beforeList [⟨"age", .greater, .int 3, some .and⟩] := by
  have hread : Sql.selectList (beforeList.drop 1) =
        .ok ([.column "name"], beforeList.drop 2) ∧
      Sql.afterWord? "FROM" (beforeList.drop 2) = some (beforeList.drop 3) ∧
      Sql.tableRefs (beforeList.drop 3) = .ok ([⟨"users", none⟩], beforeList.drop 4) ∧
      Sql.joinClauses (beforeList.drop 4) = .ok ([], ⟨"WHERE"⟩ :: beforeList.drop 5) := by
    decide +kernel
  obtain ⟨hitems, hfrom, hrefs, hjoins⟩ := hread
  refine .intro (by decide +kernel) (.intro hitems hfrom hrefs (List.cons_ne_nil _ _) hjoins)
    (by decide +kernel) ?_
  have hvalue : Sql.conditionValue (Comparison.ofOperator ">") ⟨"3"⟩ [⟨"AND"⟩] =
      .ok (.int 3, [⟨"AND"⟩]) := by decide +kernel
  have hconnector : Sql.connector ([⟨"AND"⟩] ++ [⟨"id"⟩]) = (some .and, [] ++ [⟨"id"⟩]) := by
    decide +kernel
  exact .cons (by decide +kernel) hvalue hconnector .nil

theorem ofTokens_inList_beforeList :
    DifferInValue [⟨"age", .greater, .int 3, some .and⟩] "id" .inList
        (.text "1,(ORDER)ANDJOIN;") (.int 7)
        (ofTokens (beforeList ++ ⟨"id"⟩ :: ⟨"in"⟩ :: ⟨"("⟩ ::
          (listed ++ ⟨")"⟩ :: [⟨"LIMIT"⟩, ⟨"5"⟩])))
        (ofTokens (beforeList ++ ⟨"id"⟩ :: ⟨"in"⟩ :: ⟨"7"⟩ :: [⟨"LIMIT"⟩, ⟨"5"⟩])) ∧
      (ofTokens (beforeList ++ ⟨"id"⟩ :: ⟨"in"⟩ :: ⟨"("⟩ ::
        (listed ++ ⟨")"⟩ :: [⟨"LIMIT"⟩, ⟨"5"⟩]))).limit = some 5 := by
  have hin : (Token.mk "in").isWord "IN" = true := by decide +kernel
  have hopen : (Token.mk "(").isChar '(' = true := by decide +kernel
  have hread := (ofTokens_inList leavesAtCondition_beforeList (by decide +kernel) hin hopen).1
  have htexts : Sql.joinTexts listed = "1,(ORDER)ANDJOIN;" := by decide +kernel
  have hseven : (Token.mk "7").scalar = .int 7 := by decide +kernel
  rw [← htexts, ← hseven]
  exact ⟨hread listed _ _ _ isBalanced_listed (by decide +kernel) (by decide +kernel),
    by decide +kernel⟩

end Query
end DocumentSql
