/-
# The semicolon behind the last clause

With `;` behind it a clause reads the same, leaves the same and fails alike
(`Sql.ReadsAlike`), but for conditions that break off in front of a value
(`Sql.BreaksOff`): without the terminator the last condition is dropped, with it
the terminator is its value. So the part of a SELECT behind WHERE is read the same
unless its HAVING breaks off.

Key definitions: `Sql.terminator`, `Sql.ReadsAlike`, `Sql.BreaksOff`, `Sql.AwaitsValue`.
Key theorems: `Sql.conditions_alike`, `Sql.conditions_of_breaksOff`,
`Sql.selectTail_eq_of_endsAlike`.
-/
import DocumentSql.Proofs.Sql.InList

namespace DocumentSql
namespace Sql

/-- The token that ends a statement. -/
def terminator : Token := ⟨";"⟩

/-- Nothing is left by either of two clauses, or the same is left but for a terminator behind the
second. -/
inductive EndsAlike : List Token → List Token → Prop
  | exhausted : EndsAlike [] []
  | terminated (ts : List Token) : EndsAlike ts (ts ++ [terminator])

/-- Two clauses fail for the same reason, or read the same and end alike. -/
inductive ReadsAlike {α : Type} :
    Except SyntaxError (Reading α) → Except SyntaxError (Reading α) → Prop
  | error (e : SyntaxError) : ReadsAlike (.error e) (.error e)
  | ok (x : α) {behind behind' : List Token} (ends : EndsAlike behind behind') :
      ReadsAlike (.ok (x, behind)) (.ok (x, behind'))

theorem EndsAlike.eq_append {ts ts' : List Token} (h : EndsAlike ts ts') (hne : ts ≠ []) :
    ts' = ts ++ [terminator] := by
  cases h with
  | exhausted => exact absurd rfl hne
  | terminated => rfl

theorem ReadsAlike.map {α β : Type} {r r' : Except SyntaxError (Reading α)} (f : α → β)
    (h : ReadsAlike r r') :
    ReadsAlike (r.map fun (x, behind) => (f x, behind))
      (r'.map fun (x, behind) => (f x, behind)) := by
  cases h with
  | error e => exact .error e
  | ok x ends => exact .ok (f x) ends

/-- A clause that leaves a token leaves it in front of the terminator. -/
theorem ReadsAlike.eq_ok {α : Type} {r r' : Except SyntaxError (Reading α)} {x : α}
    {behind : List Token} (h : ReadsAlike r r') (hr : r = .ok (x, behind)) (hne : behind ≠ []) :
    r' = .ok (x, behind ++ [terminator]) := by
  cases h with
  | error e => cases hr
  | ok x ends =>
    obtain ⟨rfl, rfl⟩ := Prod.mk.inj (Except.ok.inj hr)
    rw [ends.eq_append hne]

/-- What is read on alike behind clauses that read alike is the same. -/
theorem ReadsAlike.bind_eq {α β : Type} {r r' : Except SyntaxError (Reading α)}
    {go go' : Reading α → Except SyntaxError β} (h : ReadsAlike r r')
    (hgo : ∀ x behind behind', r = .ok (x, behind) → EndsAlike behind behind' →
      go (x, behind) = go' (x, behind')) : r.bind go = r'.bind go' := by
  cases h with
  | error e => rfl
  | ok x ends => exact hgo _ _ _ rfl ends

variable {ts : List Token}

theorem isChar_terminator : terminator.isChar ';' = true := by decide +kernel

theorem atBoundary_terminator (stops : List String) : atBoundary stops [terminator] = true := by
  rw [atBoundary, isChar_terminator, Bool.true_or]

/-- Whatever a clause has read, it stops in front of the terminator. -/
theorem stopsAlike_terminator (behind : List Token) : StopsAlike behind [terminator] :=
  .inr (atBoundary_terminator [])

theorem atBoundary_append_terminator {stops : List String} (h : atBoundary stops ts = true) :
    atBoundary stops (ts ++ [terminator]) = true := by
  cases ts with
  | nil => exact atBoundary_terminator stops
  | cons t ts => exact h

/-! ### Conditions -/

/-- The terminator closes no parenthesis. -/
theorem untilClose_append_terminator {depth : Nat} (h : untilClose depth ts = none) :
    untilClose depth (ts ++ [terminator]) = none := by
  have hclose : terminator.isChar ')' = false := by decide +kernel
  fun_induction untilClose depth ts with
  | case1 => simp [untilClose, hclose]
  | case2 => cases h
  | case3 t ts hc depth ih =>
    rw [List.cons_append, untilClose.eq_def]
    simp only [hc, if_true]
    exact Option.map_eq_none_iff.mpr (ih (Option.map_eq_none_iff.mp h))
  | case4 depth t ts hc ih =>
    rw [List.cons_append, untilClose.eq_def]
    simp only [hc, if_false, Bool.false_eq_true]
    exact Option.map_eq_none_iff.mpr (ih (Option.map_eq_none_iff.mp h))

theorem conditionValue_alike (comparison : Comparison) (value : Token) (ts : List Token) :
    ReadsAlike (conditionValue comparison value ts)
      (conditionValue comparison value (ts ++ [terminator])) := by
  unfold conditionValue
  split
  · cases hclose : untilClose 0 ts with
    | none =>
      rw [untilClose_append_terminator hclose]
      exact .error _
    | some collected =>
      rw [untilClose_append hclose]
      exact .ok _ (.terminated _)
  · exact .ok _ (.terminated _)

theorem connector_append_terminator (ts : List Token) :
    connector (ts ++ [terminator]) = ((connector ts).1, (connector ts).2 ++ [terminator]) := by
  cases ts with
  | nil => decide +kernel
  | cons t ts => exact connector_append (List.cons_ne_nil t ts) rfl [terminator]

/-- A condition is read the same with the terminator behind the last one. -/
theorem conditions_cons_append_terminator {stops : List String} {column operator value : Token}
    {rest behindValue : List Token} {v : Scalar} (hinside : atBoundary stops [column] = false)
    (hvalue : conditionValue (Comparison.ofOperator operator.text) value rest =
      .ok (v, behindValue)) :
    conditions stops (column :: operator :: value :: rest ++ [terminator]) =
      (conditions stops ((connector behindValue).2 ++ [terminator])).map fun (more, behind) =>
        (⟨column.text, Comparison.ofOperator operator.text, v, (connector behindValue).1⟩ :: more,
          behind) := by
  have hinside : atBoundary stops (column :: operator :: value :: (rest ++ [terminator])) =
    false := hinside
  rw [List.cons_append, List.cons_append, List.cons_append,
    conditions_cons hinside (conditionValue_append hvalue [terminator]),
    connector_append_terminator]

/-- Conditions whose last breaks off in front of its value. -/
inductive BreaksOff (stops : List String) : List Token → Prop
  | here {column operator : Token} (inside : atBoundary stops [column] = false) :
      BreaksOff stops [column, operator]
  | later {column operator value : Token} {rest behindValue : List Token} {v : Scalar}
      (inside : atBoundary stops [column] = false)
      (readsValue : conditionValue (Comparison.ofOperator operator.text) value rest =
        .ok (v, behindValue))
      (breaksOff : BreaksOff stops (connector behindValue).2) :
      BreaksOff stops (column :: operator :: value :: rest)

/-- Conditions that do not break off are read the same with the terminator behind them. -/
theorem conditions_alike {stops : List String} (h : ¬ BreaksOff stops ts) :
    ReadsAlike (conditions stops ts) (conditions stops (ts ++ [terminator])) := by
  fun_induction conditions stops ts with
  | case1 ts hstop =>
    rw [conditions.eq_def, if_pos (atBoundary_append_terminator hstop)]
    exact .ok [] (.terminated ts)
  | case2 column operator value rest e hvalue hstop =>
    have halike := conditionValue_alike (.ofOperator operator.text) value rest
    have hinside : atBoundary stops (column :: operator :: value :: (rest ++ [terminator])) =
      false := Bool.eq_false_iff.mpr hstop
    rw [hvalue] at halike
    generalize hread : conditionValue _ _ (rest ++ [terminator]) = read at halike
    cases halike
    rw [List.cons_append, List.cons_append, List.cons_append, conditions_of_error hinside hread]
    exact .error e
  | case3 column operator value rest v behindValue hvalue hstop ih =>
    have hinside : atBoundary stops [column] = false := Bool.eq_false_iff.mpr hstop
    have hmore := ih fun hb => h (.later hinside hvalue hb)
    rw [conditions_cons_append_terminator hinside hvalue]
    exact hmore.map _
  | case4 ts hstop hshort =>
    -- one token is dropped with the terminator behind it; two break off
    rcases ts with - | ⟨column, - | ⟨operator, - | ⟨value, rest⟩⟩⟩
    · exact absurd rfl hstop
    · have hinside : ¬ atBoundary stops [column, terminator] = true := hstop
      rw [List.singleton_append, conditions.eq_def, if_neg hinside]
      exact .ok [] .exhausted
    · exact absurd (.here (Bool.eq_false_iff.mpr hstop)) h
    · exact absurd rfl (hshort column operator value rest)

/-- Of conditions that break off the last is dropped, but with the terminator behind them this is
its value. -/
theorem conditions_of_breaksOff {stops : List String} (h : BreaksOff stops ts) :
    ∃ before last, conditions stops ts = .ok (before, []) ∧
      conditions stops (ts ++ [terminator]) = .ok (before ++ [last], []) := by
  have hnil : conditions stops [] = .ok ([], []) := by rw [conditions.eq_def]; rfl
  induction h with
  | @here column operator inside =>
    have hinside : ¬ atBoundary stops [column, operator] = true := Bool.eq_false_iff.mp inside
    have hinside' : atBoundary stops [column, operator, terminator] = false := inside
    have hopen : terminator.isChar '(' = false := by decide +kernel
    refine ⟨[], ⟨column.text, .ofOperator operator.text, terminator.scalar, none⟩, ?_, ?_⟩
    · rw [conditions.eq_def, if_neg hinside]
    · rw [List.cons_append, List.singleton_append,
        conditions_cons hinside' (conditionValue_single hopen [])]
      simp only [connector, hnil]
      rfl
  | @later column operator _ _ behindValue v inside readsValue _ ih =>
    obtain ⟨before, last, hread, hwith⟩ := ih
    refine ⟨⟨column.text, .ofOperator operator.text, v, (connector behindValue).1⟩ :: before, last,
      ?_, ?_⟩
    · rw [conditions_cons inside readsValue, hread]
      rfl
    · rw [conditions_cons_append_terminator inside readsValue, hwith]
      rfl

/-- The conditions behind `keyword` break off in front of a value. -/
def AwaitsValue (keyword : String) (stops : List String) (ts : List Token) : Prop :=
  ∃ filter, afterWord? keyword ts = some filter ∧ BreaksOff stops filter

theorem AwaitsValue.ne_nil {keyword : String} {stops : List String}
    (h : AwaitsValue keyword stops ts) : ts ≠ [] := by
  obtain ⟨_, hafter, -⟩ := h
  exact ne_nil_of_afterWord? hafter

theorem conditionClause_alike {keyword : String} {stops : List String}
    (hk : Text.sameWord ";" keyword = false) {ts ts' : List Token} (hends : EndsAlike ts ts')
    (h : ¬ AwaitsValue keyword stops ts) :
    ReadsAlike (conditionClause keyword stops ts) (conditionClause keyword stops ts') := by
  cases hends with
  | exhausted => exact .ok [] .exhausted
  | terminated =>
    unfold conditionClause
    cases hafter : afterWord? keyword ts with
    | none =>
      rw [afterWord?_append_eq_none hafter (stopsAlike_terminator ts) hk]
      exact .ok [] (.terminated ts)
    | some filter =>
      rw [afterWord?_append hafter]
      exact conditions_alike fun hb => h ⟨filter, hafter, hb⟩

theorem conditionClause_of_awaitsValue {keyword : String} {stops : List String}
    (h : AwaitsValue keyword stops ts) :
    ∃ before last, conditionClause keyword stops ts = .ok (before, []) ∧
      conditionClause keyword stops (ts ++ [terminator]) = .ok (before ++ [last], []) := by
  obtain ⟨filter, hafter, hb⟩ := h
  obtain ⟨before, last, hread, hwith⟩ := conditions_of_breaksOff hb
  refine ⟨before, last, ?_, ?_⟩
  · rw [conditionClause, hafter]
    exact hread
  · rw [conditionClause, afterWord?_append hafter]
    exact hwith

/-! ### The clauses behind the conditions -/

theorem columnNames_append_terminator (stops : List String) (ts : List Token) :
    columnNames stops (ts ++ [terminator]) =
      ((columnNames stops ts).1, (columnNames stops ts).2 ++ [terminator]) := by
  induction ts with
  | nil =>
    simp only [List.nil_append, columnNames, atBoundary_terminator, if_true]
  | cons t ts ih =>
    have hhead : atBoundary stops (t :: (ts ++ [terminator])) = atBoundary stops (t :: ts) := rfl
    rw [List.cons_append, columnNames, columnNames, hhead]
    by_cases hstop : atBoundary stops (t :: ts) = true
    · rw [if_pos hstop, if_pos hstop]
      rfl
    · rw [if_neg hstop, if_neg hstop, ih]

theorem direction_append_terminator (ts : List Token) :
    direction (ts ++ [terminator]) = ((direction ts).1, (direction ts).2 ++ [terminator]) := by
  cases ts with
  | nil => decide +kernel
  | cons t ts =>
    unfold direction
    simp only [List.cons_append]
    cases Direction.ofWord? t.text <;> rfl

theorem orderItems_append_terminator (stops : List String) (ts : List Token) :
    orderItems stops (ts ++ [terminator]) =
      ((orderItems stops ts).1, (orderItems stops ts).2 ++ [terminator]) := by
  fun_induction orderItems stops ts with
  | case1 =>
    rw [List.nil_append, orderItems.eq_def]
    simp only [atBoundary_terminator, if_true]
  | case2 t rest hstop =>
    have hstop : atBoundary stops (t :: (rest ++ [terminator])) = true := hstop
    rw [List.cons_append, orderItems.eq_def]
    simp only [hstop, if_true]
  | case3 t rest hstop hcomma ih =>
    have hstop : ¬ atBoundary stops (t :: (rest ++ [terminator])) = true := hstop
    rw [List.cons_append, orderItems.eq_def]
    simp only [hstop, hcomma, Bool.false_eq_true, if_false, if_true, ih]
  | case4 t rest hstop hcomma items behind hread ih =>
    have hstop : ¬ atBoundary stops (t :: (rest ++ [terminator])) = true := hstop
    rw [hread] at ih
    rw [List.cons_append, orderItems.eq_def]
    simp only [hstop, hcomma, Bool.false_eq_true, if_false, direction_append_terminator, ih]

theorem afterBy_append_terminator {keyword : String} (hk : Text.sameWord ";" keyword = false)
    (ts : List Token) :
    afterBy keyword (ts ++ [terminator]) =
      (afterBy keyword ts).map (·.map (· ++ [terminator])) := by
  unfold afterBy
  cases hafter : afterWord? keyword ts with
  | none =>
    rw [afterWord?_append_eq_none hafter (stopsAlike_terminator ts) hk]
    rfl
  | some rest =>
    simp only [afterWord?_append hafter]
    cases hby : afterWord? "BY" rest with
    | none =>
      rw [afterWord?_append_eq_none hby (stopsAlike_terminator rest) (by decide)]
      rfl
    | some rest =>
      rw [afterWord?_append hby]
      rfl

theorem groupByClause_alike {ts ts' : List Token} (h : EndsAlike ts ts') :
    ReadsAlike (groupByClause ts) (groupByClause ts') := by
  cases h with
  | exhausted => exact .ok [] .exhausted
  | terminated =>
    unfold groupByClause
    rw [afterBy_append_terminator (by decide)]
    cases afterBy "GROUP" ts with
    | error e => exact .error e
    | ok rest =>
      cases rest with
      | none => exact .ok [] (.terminated ts)
      | some rest =>
        simp only [Except.map, Option.map_some, bind, Except.bind, pure, Except.pure,
          columnNames_append_terminator]
        exact .ok _ (.terminated _)

theorem orderByClause_alike {ts ts' : List Token} (h : EndsAlike ts ts') :
    ReadsAlike (orderByClause ts) (orderByClause ts') := by
  cases h with
  | exhausted => exact .ok [] .exhausted
  | terminated =>
    unfold orderByClause
    rw [afterBy_append_terminator (by decide)]
    cases afterBy "ORDER" ts with
    | error e => exact .error e
    | ok rest =>
      cases rest with
      | none => exact .ok [] (.terminated ts)
      | some rest =>
        simp only [Except.map, Option.map_some, bind, Except.bind, pure, Except.pure,
          orderItems_append_terminator]
        exact .ok _ (.terminated _)

/-- The terminator is no count. -/
theorem countClause_alike {keyword : String} (hk : Text.sameWord ";" keyword = false)
    {ts ts' : List Token} (h : EndsAlike ts ts') :
    (countClause keyword ts).1 = (countClause keyword ts').1 ∧
      EndsAlike (countClause keyword ts).2 (countClause keyword ts').2 := by
  cases h with
  | exhausted => exact ⟨rfl, .exhausted⟩
  | terminated =>
    unfold countClause
    cases hafter : afterWord? keyword ts with
    | none =>
      rw [afterWord?_append_eq_none hafter (stopsAlike_terminator ts) hk]
      exact ⟨rfl, .terminated ts⟩
    | some rest =>
      rw [afterWord?_append hafter]
      cases rest with
      | nil =>
        have hcount : countOf? terminator = none := by decide +kernel
        exact ⟨hcount.symm, .exhausted⟩
      | cons t rest => exact ⟨rfl, .terminated rest⟩

section Tail

variable {items : List SelectItem} {refs : List TableRef} {joins : List Join}

/-- Behind its conditions a SELECT is read the same, unless those of HAVING break off. -/
theorem selectTail_eq_of_endsAlike {cs : List Condition} {ts ts' : List Token}
    (h : EndsAlike ts ts')
    (hgo : ∀ names behind, groupByClause ts = .ok (names, behind) →
      ¬ AwaitsValue "HAVING" havingStop behind) :
    selectTail items refs joins cs ts = selectTail items refs joins cs ts' := by
  unfold selectTail
  refine (groupByClause_alike h).bind_eq fun names behind _ hnames ends => ?_
  have hhaving := conditionClause_alike (by decide) ends (hgo names behind hnames)
  refine hhaving.bind_eq fun having _ _ _ ends => ?_
  refine (orderByClause_alike ends).bind_eq fun orderBy _ _ _ ends => ?_
  have hlimit : Text.sameWord ";" "LIMIT" = false := by decide
  have hoffset : Text.sameWord ";" "OFFSET" = false := by decide
  obtain ⟨hcount, ends⟩ := countClause_alike hlimit ends
  simp only [hcount, (countClause_alike hoffset ends).1]

/-- Of a HAVING that breaks off the last condition is dropped, but not with the terminator behind
it. -/
theorem selectTail_of_awaitsValue (cs : List Condition) {names : List String} {behind : List Token}
    (hnames : groupByClause ts = .ok (names, behind))
    (h : AwaitsValue "HAVING" havingStop behind) :
    ∃ q last, selectTail items refs joins cs ts = .ok q ∧
      selectTail items refs joins cs (ts ++ [terminator]) =
        .ok { q with having := q.having ++ [last] } := by
  obtain ⟨before, last, hread, hwith⟩ := conditionClause_of_awaitsValue h
  have hnames' := (groupByClause_alike (.terminated ts)).eq_ok hnames h.ne_nil
  unfold selectTail havingClause
  simp only [bind, Except.bind, hnames, hnames', hread, hwith]
  exact ⟨_, last, rfl, rfl⟩

end Tail

end Sql
end DocumentSql
