/-
# The semicolon behind the select list, the tables or the joins

These clauses take the name behind AS whatever it is, and a join the second column
of ON. Where such a word is missing they fail, but with `;` behind them they take
`;` for it. Everywhere else the terminator changes nothing, except that a select list
without FROM has one column more, which spoils the statement all the same.

Key definitions: `Sql.ItemsAlike`, `Sql.EndsInOn`, `Sql.JoinsAlike`.
Key theorems: `Sql.selectList_alike`, `Sql.tableRefs_error`, `Sql.joinClauses_alike`.
-/
import DocumentSql.Proofs.Sql.Terminator

namespace DocumentSql
namespace Sql

variable {ts : List Token}

/-! ### Aliases -/

/-- The alias that AS announces is the only thing that an alias can lack. -/
theorem callAlias_error {e : SyntaxError} (h : callAlias ts = .error e) :
    e = .aliasExpected ∧ callAlias (ts ++ [terminator]) = .ok (some terminator.text, []) := by
  unfold callAlias at h
  split at h
  · cases h
  · rename_i hafter
    refine ⟨(Except.error.inj h).symm, ?_⟩
    rw [callAlias, afterWord?_append hafter]
    rfl
  · cases h

theorem tableAlias_error {e : SyntaxError} (h : tableAlias ts = .error e) :
    e = .aliasExpected ∧ tableAlias (ts ++ [terminator]) = .ok (some terminator.text, []) := by
  unfold tableAlias at h
  split at h
  · rename_i hafter
    refine ⟨(Except.error.inj h).symm, ?_⟩
    simp only [tableAlias, afterWord?_append hafter, List.nil_append]
  · cases h
  · split at h
    · cases h
    · split at h
      all_goals cases h

/-! ### The select list -/

/-- What the terminator makes of a select list: nothing else, but for an alias behind AS, and for
one more column where FROM is missing. -/
inductive ItemsAlike : Except SyntaxError (Reading (List SelectItem)) →
    Except SyntaxError (Reading (List SelectItem)) → Prop
  | error {e : SyntaxError} (hasAlias : e ≠ .aliasExpected) : ItemsAlike (.error e) (.error e)
  | lacksAlias (items : List SelectItem) : ItemsAlike (.error .aliasExpected) (.ok (items, []))
  | lacksFrom (items items' : List SelectItem) : ItemsAlike (.ok (items, [])) (.ok (items', []))
  | ok (items : List SelectItem) (behind : List Token) :
      ItemsAlike (.ok (items, behind)) (.ok (items, behind ++ [terminator]))

theorem ItemsAlike.cons {r r' : Except SyntaxError (Reading (List SelectItem))}
    (item : SelectItem) (h : ItemsAlike r r') :
    ItemsAlike (r.map fun (items, behind) => (item :: items, behind))
      (r'.map fun (items, behind) => (item :: items, behind)) := by
  cases h with
  | error hasAlias => exact .error hasAlias
  | lacksAlias items => exact .lacksAlias (item :: items)
  | lacksFrom items items' => exact .lacksFrom (item :: items) (item :: items')
  | ok items behind => exact .ok (item :: items) behind

/-- The terminator opens no call. -/
theorem calledFunction?_append_terminator (t : Token) (ts : List Token) :
    calledFunction? t (ts ++ [terminator]) = calledFunction? t ts := by
  cases ts with
  | nil =>
    have hopen : terminator.isChar '(' = false := by decide +kernel
    simp only [List.nil_append, calledFunction?, hopen, Bool.false_eq_true, if_false]
  | cons p ts => rfl

theorem selectList_open {f p : Token} {function : AggregateFunction}
    (hfrom : f.isWord "FROM" = false) (hcomma : f.isChar ',' = false)
    (hcall : calledFunction? f (p :: ts) = some function) (hclose : untilClose 0 ts = none) :
    selectList (f :: p :: ts) = .error (.unclosedCall function) := by
  rw [selectList.eq_def]
  simp only [hfrom, hcomma, Bool.false_eq_true, if_false, hcall]
  split
  · rfl
  · rename_i hsome
    rw [List.drop_one, List.tail_cons, hclose] at hsome
    cases hsome

theorem selectList_alike (ts : List Token) :
    ItemsAlike (selectList ts) (selectList (ts ++ [terminator])) := by
  fun_induction selectList ts with
  | case1 =>
    have hfrom : terminator.isWord "FROM" = false := by decide +kernel
    have hcomma : terminator.isChar ',' = false := by decide +kernel
    rw [List.nil_append, selectList_column hfrom hcomma rfl, selectList_nil]
    exact .lacksFrom [] [.column terminator.text]
  | case2 t rest hfrom =>
    rw [List.cons_append, selectList.eq_def]
    simp only [hfrom, if_true]
    exact .ok [] (t :: rest)
  | case3 t rest hfrom hcomma ih =>
    have hwith : selectList (t :: (rest ++ [terminator])) = selectList (rest ++ [terminator]) := by
      rw [selectList.eq_def]
      simp only [hfrom, hcomma, if_true, Bool.false_eq_true, if_false]
    rw [List.cons_append, hwith]
    exact ih
  | case4 t rest hfrom hcomma hcall ih =>
    rw [List.cons_append, selectList_column (by simpa using hfrom) (by simpa using hcomma)
      ((calledFunction?_append_terminator t rest).trans hcall)]
    exact ih.cons _
  | case5 t rest hfrom hcomma function hcall hclose =>
    obtain ⟨p, rest, rfl, hopens⟩ := exists_opening hcall
    rw [List.drop_one, List.tail_cons] at hclose
    rw [List.cons_append, List.cons_append, selectList_open (by simpa using hfrom)
      (by simpa using hcomma) (hopens _) (untilClose_append_terminator hclose)]
    exact .error SyntaxError.noConfusion
  | case6 t rest hfrom hcomma function hcall inner afterCall hclose e halias =>
    obtain ⟨p, rest, rfl, hopens⟩ := exists_opening hcall
    obtain ⟨rfl, hwith⟩ := callAlias_error halias
    rw [List.drop_one, List.tail_cons] at hclose
    rw [List.cons_append, List.cons_append, selectList_call (by simpa using hfrom)
      (by simpa using hcomma) (hopens _) (untilClose_append hclose _) hwith, selectList_nil]
    exact .lacksAlias _
  | case7 t rest hfrom hcomma function hcall inner afterCall hclose aliasName behind halias ih =>
    obtain ⟨p, rest, rfl, hopens⟩ := exists_opening hcall
    rw [List.drop_one, List.tail_cons] at hclose
    rw [List.cons_append, List.cons_append, selectList_call (by simpa using hfrom)
      (by simpa using hcomma) (hopens _) (untilClose_append hclose _)
      (callAlias_append halias (stopsAlike_terminator behind))]
    exact ih.cons _

/-! ### Tables -/

/-- A clause that fails in front of a reading does so on the rest. -/
theorem eq_error_of_map {α β : Type} {r : Except SyntaxError α} {f : α → β} {e : SyntaxError}
    (h : r.map f = .error e) : r = .error e := by
  cases r with
  | error e' => exact congrArg Except.error (Except.error.inj h)
  | ok x => cases h

/-- Tables that break off behind AS have the terminator for their last alias. -/
theorem tableRefs_error {e : SyntaxError} (h : tableRefs ts = .error e) :
    e = .aliasExpected ∧
      ∃ refs, refs ≠ [] ∧ tableRefs (ts ++ [terminator]) = .ok (refs, []) := by
  fun_induction tableRefs ts with
  | case1 => cases h
  | case2 => cases h
  | case3 t rest hstop hcomma ih =>
    rw [List.cons_append, tableRefs.eq_def]
    simp only [atBoundary_cons_append hstop, hcomma, Bool.false_eq_true, if_false, if_true]
    exact ih h
  | case4 t rest hstop hcomma e' halias =>
    obtain rfl := Except.error.inj h
    obtain ⟨rfl, hwith⟩ := tableAlias_error halias
    refine ⟨rfl, [⟨t.text, some terminator.text⟩], List.cons_ne_nil _ _, ?_⟩
    rw [List.cons_append, tableRefs_cons (atBoundary_cons_append hstop _) (by simpa using hcomma)
      hwith, tableRefs_nil]
    rfl
  | case5 t rest hstop hcomma aliasName behind halias ih =>
    obtain ⟨rfl, refs, -, hwith⟩ := ih (eq_error_of_map h)
    refine ⟨rfl, ⟨t.text, aliasName⟩ :: refs, List.cons_ne_nil _ _, ?_⟩
    rw [List.cons_append, tableRefs_cons (atBoundary_cons_append hstop _) (by simpa using hcomma)
      (tableAlias_append halias (stopsAlike_terminator behind)), hwith]
    rfl

/-! ### Joins -/

/-- A join whose table has been opened breaks off in front of the second column of ON. -/
inductive TailEndsInOn : List Token → Prop
  | intro {table on left operator : Token} {rest : List Token} {aliasName : Option String}
      (isTable : atBoundary fromStop [table] = false)
      (readsAlias : tableAlias rest = .ok (aliasName, [on, left, operator]))
      (isOn : on.isWord "ON" = true) : TailEndsInOn (table :: rest)

/-- Joins of which the last breaks off in front of the second column of ON. -/
inductive EndsInOn : List Token → Prop
  | here {t : Token} {rest behindKind : List Token} {kind : JoinKind}
      (opens : t.isAnyWord joinStart = true) (readsKind : joinKind t rest = .ok (kind, behindKind))
      (breaksOff : TailEndsInOn behindKind) : EndsInOn (t :: rest)
  | later {t : Token} {rest behind : List Token} {join : Join}
      (opens : t.isAnyWord joinStart = true) (readsJoin : joinClause t rest = .ok (join, behind))
      (breaksOff : EndsInOn behind) : EndsInOn (t :: rest)

/-- What the terminator makes of joins: nothing else, but for an alias behind AS, and for the second
column of an ON that is to come (`awaits`). -/
inductive JoinsAlike {α : Type} (awaits : Prop) :
    Except SyntaxError (Reading α) → Except SyntaxError (Reading α) → Prop
  | error {e : SyntaxError} (complete : ¬ awaits) (hasAlias : e ≠ .aliasExpected) :
      JoinsAlike awaits (.error e) (.error e)
  | lacksAlias (table : String) (complete : ¬ awaits) :
      JoinsAlike awaits (.error .aliasExpected) (.error (.onExpected table))
  | lacksColumn (x : α) (breaksOff : awaits) :
      JoinsAlike awaits (.error .incompleteOn) (.ok (x, []))
  | ok (x : α) (behind : List Token) (complete : ¬ awaits) :
      JoinsAlike awaits (.ok (x, behind)) (.ok (x, behind ++ [terminator]))

theorem joinKind_error {t : Token} {e : SyntaxError} (h : joinKind t ts = .error e) :
    e ≠ .aliasExpected ∧ joinKind t (ts ++ [terminator]) = .error e := by
  unfold joinKind at h ⊢
  split at h
  · cases h
  · rename_i hjoin
    rw [if_neg hjoin]
    simp only at h
    split at h
    · cases h
    · rename_i hafter
      obtain rfl := Except.error.inj h
      refine ⟨SyntaxError.noConfusion, ?_⟩
      rw [skipWord_append (stopsAlike_terminator ts) (by decide),
        afterWord?_append_eq_none hafter (stopsAlike_terminator _) (by decide)]

theorem JoinsAlike.map {α β : Type} {awaits awaits' : Prop} {r r' : Except SyntaxError (Reading α)}
    (f : α → β) (h : JoinsAlike awaits r r') (hiff : awaits ↔ awaits') :
    JoinsAlike awaits' (r.map fun (x, behind) => (f x, behind))
      (r'.map fun (x, behind) => (f x, behind)) := by
  rw [hiff] at h
  cases h with
  | error complete hasAlias => exact .error complete hasAlias
  | lacksAlias table complete => exact .lacksAlias table complete
  | lacksColumn x breaksOff => exact .lacksColumn (f x) breaksOff
  | ok x behind complete => exact .ok (f x) behind complete

theorem onClause_alike (table : String) (ts : List Token) :
    JoinsAlike (∃ on left operator, ts = [on, left, operator] ∧ on.isWord "ON" = true)
      (onClause table ts) (onClause table (ts ++ [terminator])) := by
  cases ts with
  | nil =>
    refine .error ?_ SyntaxError.noConfusion
    rintro ⟨_, _, _, hts, -⟩
    cases hts
  | cons on rest =>
    by_cases hon : on.isWord "ON" = true
    · rw [onClause, List.cons_append, onClause, afterWord?_of_isWord hon, afterWord?_of_isWord hon]
      -- two tokens behind ON await the third; with fewer the terminator is not the last
      rcases rest with - | ⟨left, - | ⟨operator, - | ⟨right, rest⟩⟩⟩
      · refine .error ?_ SyntaxError.noConfusion
        rintro ⟨_, _, _, hts, -⟩
        cases hts
      · refine .error ?_ SyntaxError.noConfusion
        rintro ⟨_, _, _, hts, -⟩
        cases hts
      · exact .lacksColumn _ ⟨on, left, operator, rfl, hon⟩
      · have hcomplete : ¬ ∃ on' left' operator', on :: left :: operator :: right :: rest =
            [on', left', operator'] ∧ on'.isWord "ON" = true := by
          rintro ⟨_, _, _, hts, -⟩
          cases hts
        simp only [List.cons_append, atConnector_append (stopsAlike_terminator rest)]
        cases atConnector rest with
        | true => exact .error hcomplete SyntaxError.noConfusion
        | false => exact .ok _ rest hcomplete
    · have hnone := afterWord?_of_isWord_eq_false (Bool.eq_false_iff.mpr hon)
      rw [onClause, List.cons_append, onClause, hnone, hnone]
      refine .error ?_ SyntaxError.noConfusion
      rintro ⟨_, _, _, hts, hword⟩
      obtain ⟨rfl, -⟩ := List.cons.inj hts
      exact hon hword

/-- A join that has a table and an alias goes on with ON. -/
theorem joinTail_cons {kind : JoinKind} {table : Token} {rest behind : List Token}
    {aliasName : Option String} (hstop : atBoundary fromStop (table :: rest) = false)
    (halias : tableAlias rest = .ok (aliasName, behind)) :
    joinTail kind (table :: rest) = (onClause table.text behind).map fun (on, behind) =>
      (⟨kind, table.text, aliasName, on⟩, behind) := by
  simp only [joinTail, hstop, Bool.false_eq_true, if_false, bind, Except.bind, halias]
  cases onClause table.text behind <;> rfl

theorem joinTail_alike (kind : JoinKind) (ts : List Token) :
    JoinsAlike (TailEndsInOn ts) (joinTail kind ts) (joinTail kind (ts ++ [terminator])) := by
  cases ts with
  | nil =>
    refine .error ?_ SyntaxError.noConfusion
    rintro ⟨⟩
  | cons table rest =>
    have hhead : atBoundary fromStop (table :: (rest ++ [terminator])) =
      atBoundary fromStop (table :: rest) := rfl
    by_cases hstop : atBoundary fromStop (table :: rest) = true
    · rw [List.cons_append, joinTail, joinTail, hhead, if_pos hstop, if_pos hstop]
      refine .error ?_ SyntaxError.noConfusion
      rintro ⟨isTable, -, -⟩
      exact Bool.eq_false_iff.mp isTable hstop
    · have hstop : atBoundary fromStop (table :: rest) = false := Bool.eq_false_iff.mpr hstop
      cases halias : tableAlias rest with
      | error e =>
        obtain ⟨rfl, hwith⟩ := tableAlias_error halias
        rw [List.cons_append, joinTail_cons (hhead.trans hstop) hwith, joinTail, hstop]
        simp only [Bool.false_eq_true, if_false, bind, Except.bind, halias]
        refine .lacksAlias table.text ?_
        rintro ⟨-, readsAlias, -⟩
        rw [halias] at readsAlias
        cases readsAlias
      | ok named =>
        obtain ⟨aliasName, behind⟩ := named
        have hwith := tableAlias_append halias (stopsAlike_terminator behind)
        rw [List.cons_append, joinTail_cons (hhead.trans hstop) hwith, joinTail_cons hstop halias]
        refine (onClause_alike table.text behind).map _ ⟨?_, ?_⟩
        · rintro ⟨on, left, operator, rfl, hon⟩
          exact .intro hstop halias hon
        · rintro ⟨-, readsAlias, isOn⟩
          rw [halias] at readsAlias
          obtain ⟨-, rfl⟩ := Prod.mk.inj (Except.ok.inj readsAlias)
          exact ⟨_, _, _, rfl, isOn⟩

theorem joinClause_alike (t : Token) (ts : List Token) :
    JoinsAlike (∃ kind behind, joinKind t ts = .ok (kind, behind) ∧ TailEndsInOn behind)
      (joinClause t ts) (joinClause t (ts ++ [terminator])) := by
  simp only [joinClause, bind, Except.bind]
  cases hkind : joinKind t ts with
  | error e =>
    obtain ⟨hasAlias, hwith⟩ := joinKind_error hkind
    rw [hwith]
    refine .error ?_ hasAlias
    rintro ⟨_, _, hok, -⟩
    cases hok
  | ok reading =>
    obtain ⟨kind, behind⟩ := reading
    rw [joinKind_append hkind]
    have halike := joinTail_alike kind behind
    have hiff : TailEndsInOn behind ↔ ∃ kind' behind', (Except.ok (kind, behind) :
        Except SyntaxError (Reading JoinKind)) = .ok (kind', behind') ∧ TailEndsInOn behind' := by
      refine ⟨fun h => ⟨kind, behind, rfl, h⟩, ?_⟩
      rintro ⟨_, _, hok, h⟩
      obtain ⟨-, rfl⟩ := Prod.mk.inj (Except.ok.inj hok)
      exact h
    rwa [hiff] at halike

/-- A join that fails spoils the joins. -/
theorem joinClauses_of_error {t : Token} {e : SyntaxError} (hstart : t.isAnyWord joinStart = true)
    (h : joinClause t ts = .error e) : joinClauses (t :: ts) = .error e := by
  rw [joinClauses.eq_def]
  simp only [hstart, if_true]
  split
  · rename_i herror
    rw [h] at herror
    exact congrArg Except.error (Except.error.inj herror).symm
  · rename_i hok
    rw [h] at hok
    cases hok

theorem endsInOn_cons_iff {t : Token} (hstart : t.isAnyWord joinStart = true) :
    EndsInOn (t :: ts) ↔
      (∃ kind behind, joinKind t ts = .ok (kind, behind) ∧ TailEndsInOn behind) ∨
        ∃ join behind, joinClause t ts = .ok (join, behind) ∧ EndsInOn behind := by
  constructor
  · rintro (⟨_, readsKind, breaksOff⟩ | ⟨_, readsJoin, breaksOff⟩)
    · exact .inl ⟨_, _, readsKind, breaksOff⟩
    · exact .inr ⟨_, _, readsJoin, breaksOff⟩
  · rintro (⟨_, _, readsKind, breaksOff⟩ | ⟨_, _, readsJoin, breaksOff⟩)
    · exact .here hstart readsKind breaksOff
    · exact .later hstart readsJoin breaksOff

/-- The joins are the same with the terminator behind them, unless AS is the last word or ON lacks
its second column. -/
theorem joinClauses_alike (ts : List Token) :
    JoinsAlike (EndsInOn ts) (joinClauses ts) (joinClauses (ts ++ [terminator])) := by
  fun_induction joinClauses ts with
  | case1 =>
    have hnone : joinClauses [terminator] = .ok ([], [terminator]) := by
      refine joinClauses_of_head? fun t ht => ?_
      obtain rfl := Option.some.inj ht
      decide +kernel
    rw [List.nil_append, hnone]
    refine .ok [] [] ?_
    rintro ⟨⟩
  | case2 t rest hstart e hjoin =>
    have halike := joinClause_alike t rest
    have hiff : EndsInOn (t :: rest) ↔
        ∃ kind behind, joinKind t rest = .ok (kind, behind) ∧ TailEndsInOn behind := by
      rw [endsInOn_cons_iff hstart, hjoin]
      refine or_iff_left ?_
      rintro ⟨_, _, hok, -⟩
      cases hok
    rw [← hiff, hjoin] at halike
    rw [List.cons_append]
    generalize hwith : joinClause t (rest ++ [terminator]) = r at halike
    cases halike with
    | error complete hasAlias =>
      rw [joinClauses_of_error hstart hwith]
      exact .error complete hasAlias
    | lacksAlias table complete =>
      rw [joinClauses_of_error hstart hwith]
      exact .lacksAlias table complete
    | lacksColumn join breaksOff =>
      rw [joinClauses_cons hstart hwith, joinClauses_nil]
      exact .lacksColumn [join] breaksOff
  | case3 t rest hstart join behind hjoin ih =>
    have hwith := joinClause_append hjoin (stopsAlike_terminator behind)
    rw [List.cons_append, joinClauses_cons hstart hwith]
    refine ih.map _ ⟨.later hstart hjoin, fun h => ?_⟩
    have complete : ¬ ∃ kind behind,
        joinKind t rest = .ok (kind, behind) ∧ TailEndsInOn behind := by
      have halike := joinClause_alike t rest
      rw [hjoin, hwith] at halike
      cases halike
      assumption
    rw [endsInOn_cons_iff hstart, hjoin] at h
    obtain ⟨_, _, hok, hends⟩ := h.resolve_left complete
    obtain ⟨-, rfl⟩ := Prod.mk.inj (Except.ok.inj hok)
    exact hends
  | case4 t rest hstart =>
    have hwith : joinClauses (t :: (rest ++ [terminator])) =
        .ok ([], t :: (rest ++ [terminator])) := by
      refine joinClauses_of_head? fun u hu => ?_
      obtain rfl := Option.some.inj hu
      simpa using hstart
    rw [List.cons_append, hwith]
    refine .ok [] (t :: rest) ?_
    rintro (⟨opens, -, -⟩ | ⟨opens, -, -⟩)
    · exact hstart opens
    · exact hstart opens

end Sql
end DocumentSql
