/-
# What is written for items, tables and joins is read back

The parts of a SELECT that come first read back what is written for them and
leave what follows, if that ends them. The lists with commas between them are
read by loops of one kind, so they share one argument (`read_commaSeparated`).

Key theorems: `Sql.read_commaSeparated`, `Sql.selectList_of_writes`,
`Sql.tableRefs_of_writes`, `Sql.joinClauses_of_writes`.
-/
import DocumentSql.Proofs.Sql.Words

namespace DocumentSql
namespace Sql

/-! ### What is written for several pieces -/

theorem writes_cons {piece : Piece} {pieces : List Piece} {ts : List Token}
    (h : Writes (piece :: pieces) ts) :
    ∃ t us, ts = t :: us ∧ piece.IsWrittenAs t ∧ Writes pieces us := by
  obtain ⟨t, us, ht, hus, rfl⟩ := List.forall₂_cons_left_iff.mp h
  exact ⟨t, us, rfl, ht, hus⟩

theorem writes_nil {ts : List Token} (h : Writes [] ts) : ts = [] :=
  List.forall₂_nil_left_iff.mp h

theorem writes_append : ∀ {ps qs : List Piece} {ts : List Token}, Writes (ps ++ qs) ts →
    ∃ us vs, ts = us ++ vs ∧ Writes ps us ∧ Writes qs vs
  | [], _, ts, h => ⟨[], ts, rfl, .nil, h⟩
  | _ :: ps, _, _, h => by
    obtain ⟨t, us, rfl, ht, hus⟩ := writes_cons h
    obtain ⟨us, vs, rfl, hps, hqs⟩ := writes_append hus
    exact ⟨t :: us, vs, rfl, .cons ht hps, hqs⟩

/-! ### Lists with commas -/

/-- The tokens go on with a comma, or with what ends a list. -/
def Separates (ends : List Token → Prop) (rest : List Token) : Prop :=
  ends rest ∨ ∃ t ts, rest = t :: ts ∧ t.text = ","

/-- A loop that skips commas and reads one item after the other reads back what is written for a
list of items. -/
theorem read_commaSeparated {α β : Type} {pieces : α → List Piece} {value : α → β}
    {ends : List Token → Prop} (read : List Token → Except SyntaxError (Reading (List β)))
    (hcomma : ∀ t rest, t.text = "," → read (t :: rest) = read rest)
    (hend : ∀ rest, ends rest → read rest = .ok ([], rest))
    (hitem : ∀ x ts rest, Writes (pieces x) ts → Separates ends rest →
      read (ts ++ rest) = (read rest).map fun (values, behind) => (value x :: values, behind))
    (xs : List α) {ts rest : List Token} (hw : Writes (commaSeparated (xs.map pieces)) ts)
    (hrest : ends rest) : read (ts ++ rest) = .ok (xs.map value, rest) := by
  have htail : ∀ (xs : List α) (ts : List Token),
      Writes ((xs.map pieces).flatMap (.exact "," :: ·)) ts →
      Separates ends (ts ++ rest) ∧ read (ts ++ rest) = .ok (xs.map value, rest) := by
    intro xs
    induction xs with
    | nil =>
      intro ts hw
      rw [writes_nil hw]
      exact ⟨.inl hrest, hend rest hrest⟩
    | cons x xs ih =>
      intro ts hw
      obtain ⟨us, vs, rfl, hus, hvs⟩ := writes_append hw
      obtain ⟨t, us, rfl, ht, hus⟩ := writes_cons hus
      obtain ⟨hsep, hread⟩ := ih vs hvs
      refine ⟨.inr ⟨t, _, rfl, ht⟩, ?_⟩
      rw [List.append_assoc, List.cons_append, hcomma t _ ht, hitem x us _ hus hsep, hread]
      rfl
  cases xs with
  | nil =>
    rw [writes_nil hw]
    exact hend rest hrest
  | cons x xs =>
    obtain ⟨us, vs, rfl, hus, hvs⟩ := writes_append hw
    obtain ⟨hsep, hread⟩ := htail xs vs hvs
    rw [List.append_assoc, hitem x us _ hus hsep, hread]
    rfl

/-- What separates items does not begin with a word that neither a comma nor an end is. -/
theorem isWord_of_separates {stops : List String} {t : Token} {rest : List Token}
    (h : Separates (atBoundary stops · = true) (t :: rest)) {keyword : String}
    (hk : ∀ stop ∈ "," :: ";" :: stops, Text.sameWord stop keyword = false) :
    t.isWord keyword = false := by
  rw [List.forall_mem_cons] at hk
  rcases h with h | ⟨u, us, he, hu⟩
  · exact isWord_of_atBoundary h hk.2
  · obtain ⟨rfl, -⟩ := List.cons.inj he
    rw [Token.isWord, hu, hk.1]

theorem afterWord?_of_separates {stops : List String} {rest : List Token}
    (h : Separates (atBoundary stops · = true) rest) {keyword : String}
    (hk : ∀ stop ∈ "," :: ";" :: stops, Text.sameWord stop keyword = false) :
    afterWord? keyword rest = none := by
  cases rest with
  | nil => rfl
  | cons t ts => exact afterWord?_of_isWord_eq_false (isWord_of_separates h hk) ts

/-! ### The select list -/

/-- A list of items is ended by FROM. -/
def BeginsFrom (rest : List Token) : Prop := ∃ t ts, rest = t :: ts ∧ t.isWord "FROM" = true

theorem afterWord?_as_of_separates {rest : List Token} (h : Separates BeginsFrom rest) :
    afterWord? "AS" rest = none := by
  rcases h with ⟨t, ts, rfl, ht⟩ | ⟨t, ts, rfl, ht⟩
  · exact afterWord?_of_isWord_eq_false (by rw [Token.isWord_congr ht]; decide) ts
  · exact afterWord?_of_isWord_eq_false (by rw [Token.isWord, ht]; decide) ts

theorem untilClose_argument {argument : Name} {a close : Token} (ha : a.text = argument.text)
    (hclose : close.text = ")") (rest : List Token) :
    untilClose 0 (a :: close :: rest) = some ([a], rest) := by
  have hc : close.isChar ')' = true := by rw [Token.isChar, hclose]; decide
  have h1 : a.isChar ')' = false := Name.isChar_eq_false ha (by decide)
  have h2 : a.isChar '(' = false := Name.isChar_eq_false ha (by decide)
  simp [untilClose, h1, h2, hc]

theorem dropWhile_isBlank {cs : List Char} (h : ∀ c ∈ cs, Text.isBlank c = false) :
    cs.dropWhile Text.isBlank = cs := by
  cases cs with
  | nil => rfl
  | cons c cs => simp [h c List.mem_cons_self]

theorem trim_name (name : Name) : Text.trim name.text = name.text := by
  have hblank : ∀ c ∈ name.text.toList, Text.isBlank c = false :=
    fun c hc => isBlank_of_isWordChar (name.isWord.chars c hc)
  have hreverse : ∀ c ∈ name.text.toList.reverse, Text.isBlank c = false :=
    fun c hc => hblank c (List.mem_reverse.mp hc)
  rw [Text.trim, Text.trimChars, dropWhile_isBlank hblank, Text.dropBlanksRight,
    dropWhile_isBlank hreverse, List.reverse_reverse, String.ofList_toList]

theorem callAlias_of_writes (aliasName : Option Name) {ts rest : List Token}
    (hw : Writes ((aliasName.map fun a => [Piece.keyword "AS", .exact a.text]).getD []) ts)
    (hrest : afterWord? "AS" rest = none) :
    callAlias (ts ++ rest) = .ok (aliasName.map (·.text), rest) := by
  cases aliasName with
  | none =>
    obtain rfl := writes_nil hw
    simp only [callAlias, List.nil_append, hrest, Option.map_none]
  | some name =>
    obtain ⟨t, us, rfl, ht, hus⟩ := writes_cons hw
    obtain ⟨u, vs, rfl, hu, hvs⟩ := writes_cons hus
    obtain rfl := writes_nil hvs
    have hafter := afterWord?_of_isWord ht ([u] ++ rest)
    simp only [callAlias, List.cons_append, List.nil_append] at hafter ⊢
    simp only [hafter, Option.map_some]
    rw [show u.text = name.text from hu]

/-- One step of the select list: a call. -/
theorem selectList_call {f p : Token} {rest inner afterCall behind : List Token}
    {function : AggregateFunction} {aliasName : Option String} (hfrom : f.isWord "FROM" = false)
    (hcomma : f.isChar ',' = false) (hcall : calledFunction? f (p :: rest) = some function)
    (hclose : untilClose 0 rest = some (inner, afterCall))
    (hname : callAlias afterCall = .ok (aliasName, behind)) :
    selectList (f :: p :: rest) = (selectList behind).map fun (items, ts) =>
      (.call ⟨function, Text.trim (joinTexts inner), aliasName⟩ :: items, ts) := by
  rw [selectList.eq_def]
  simp only [hfrom, hcomma, Bool.false_eq_true, if_false, hcall]
  split
  · rename_i hnone
    rw [List.drop_one, List.tail_cons, hclose] at hnone
    cases hnone
  · rename_i hsome
    rw [List.drop_one, List.tail_cons, hclose] at hsome
    obtain ⟨rfl, rfl⟩ := Prod.mk.inj (Option.some.inj hsome)
    split
    · rename_i herror
      rw [hname] at herror
      cases herror
    · rename_i hok
      rw [hname] at hok
      obtain ⟨rfl, rfl⟩ := Prod.mk.inj (Except.ok.inj hok)
      rfl

theorem selectList_item (i : Item) {ts rest : List Token} (hw : Writes i.pieces ts)
    (hrest : Separates BeginsFrom rest) :
    selectList (ts ++ rest) =
      (selectList rest).map fun (items, behind) => (i.item :: items, behind) := by
  cases i with
  | column name =>
    obtain ⟨t, us, rfl, ht, hus⟩ := writes_cons hw
    obtain rfl := writes_nil hus
    have hcall : calledFunction? t rest = none := by
      rcases hrest with ⟨u, us, rfl, hu⟩ | ⟨u, us, rfl, hu⟩
      · have hchar : u.isChar '(' = false :=
          Token.isChar_eq_false_of_isWord
            (Piece.isWord_of_keyword ⟨by decide, by decide⟩ hu) (by decide)
        simp [calledFunction?, hchar]
      · have hchar : u.isChar '(' = false := by rw [Token.isChar, hu]; decide
        simp [calledFunction?, hchar]
    have hfrom : t.isWord "FROM" = false := Name.isWord_eq_false ht (by decide)
    have hcomma : t.isChar ',' = false := Name.isChar_eq_false ht (by decide)
    rw [List.singleton_append, selectList.eq_def]
    simp only [hfrom, hcomma, Bool.false_eq_true, if_false, hcall]
    rw [show t.text = name.text from ht]
    rfl
  | call function argument aliasName =>
    obtain ⟨us, vs, rfl, hus, hvs⟩ := writes_append hw
    obtain ⟨f, us, rfl, hf, hus⟩ := writes_cons hus
    obtain ⟨p, us, rfl, hp, hus⟩ := writes_cons hus
    obtain ⟨a, us, rfl, ha, hus⟩ := writes_cons hus
    obtain ⟨c, us, rfl, hc, hus⟩ := writes_cons hus
    obtain rfl := writes_nil hus
    have hsound : (Piece.keyword function.text).IsSound := by
      cases function <;> exact ⟨by decide, by decide⟩
    have hfrom : f.isWord "FROM" = false := by
      rw [Token.isWord_congr hf]
      cases function <;> decide
    have hcomma : f.isChar ',' = false :=
      Token.isChar_eq_false_of_isWord (Piece.isWord_of_keyword hsound hf) (by decide)
    have hopen : p.isChar '(' = true := by rw [Token.isChar, show p.text = "(" from hp]; decide
    have hcall : calledFunction? f (p :: a :: c :: (vs ++ rest)) = some function := by
      simp only [calledFunction?, hopen, if_true]
      exact AggregateFunction.ofWord?_eq_some hf
    have hclose := untilClose_argument ha hc (vs ++ rest)
    have hname := callAlias_of_writes aliasName hvs (afterWord?_as_of_separates hrest)
    have hargument : Text.trim (joinTexts [a]) = argument.text := by
      rw [joinTexts, List.map_singleton, show a.text = argument.text from ha]
      simpa [String.join] using trim_name argument
    simp only [List.cons_append, List.nil_append]
    rw [selectList_call hfrom hcomma hcall hclose hname, hargument]
    rfl

/-- The select list is read back. -/
theorem selectList_of_writes (items : List Item) {ts rest : List Token}
    (hw : Writes (commaSeparated (items.map (·.pieces))) ts) (hrest : BeginsFrom rest) :
    selectList (ts ++ rest) = .ok (items.map (·.item), rest) := by
  refine read_commaSeparated selectList ?_ ?_ (fun i _ _ => selectList_item i) items hw hrest
  · intro t rest ht
    have hfrom : t.isWord "FROM" = false := by rw [Token.isWord, ht]; decide
    have hcomma : t.isChar ',' = true := by rw [Token.isChar, ht]; decide
    rw [selectList.eq_def]
    simp only [hfrom, hcomma, Bool.false_eq_true, if_false, if_true]
  · rintro rest ⟨t, ts, rfl, ht⟩
    rw [selectList.eq_def]
    simp only [ht, if_true]

/-! ### Tables and joins -/

theorem reserved_of_fromStop : ∀ stop ∈ fromStop, stop ∈ reserved := by decide

/-- A table without an alias is followed by a comma or the end of the list. -/
theorem tableAlias_of_separates {rest : List Token}
    (hrest : Separates (atBoundary fromStop · = true) rest) :
    tableAlias rest = .ok (none, rest) := by
  have has : afterWord? "AS" rest = none := afterWord?_of_separates hrest (by decide)
  cases rest with
  | nil => rfl
  | cons t ts =>
    have hstop : (atBoundary fromStop (t :: ts) || t.isChar ',') = true := by
      rcases hrest with h | ⟨u, us, he, hu⟩
      · rw [h, Bool.true_or]
      · obtain ⟨rfl, -⟩ := List.cons.inj he
        rw [show t.isChar ',' = true by rw [Token.isChar, hu]; decide, Bool.or_true]
    simp only [tableAlias, has, hstop, if_true]

/-- The alias of a table is read back. -/
theorem tableAlias_of_writes (s : Source) {ts rest : List Token} (hw : Writes s.aliasPieces ts)
    (hrest : Separates (atBoundary fromStop · = true) rest) :
    tableAlias (ts ++ rest) = .ok (s.aliasText, rest) := by
  unfold Source.aliasPieces at hw
  unfold Source.aliasText
  cases ha : s.aliasName with
  | none =>
    rw [ha] at hw
    obtain rfl := writes_nil hw
    exact tableAlias_of_separates hrest
  | some a =>
    rw [ha] at hw
    obtain ⟨us, vs, rfl, hus, hvs⟩ := writes_append hw
    obtain ⟨t, vs, rfl, ht, hvs⟩ := writes_cons hvs
    obtain rfl := writes_nil hvs
    have htext : t.text = a.name.text := ht
    cases han : a.announced with
    | true =>
      rw [han] at hus
      obtain ⟨u, us, rfl, hu, hus⟩ := writes_cons hus
      obtain rfl := writes_nil hus
      have has : afterWord? "AS" (u :: t :: rest) = some (t :: rest) := afterWord?_of_isWord hu _
      simp only [List.cons_append, List.nil_append, tableAlias, has, htext, Option.map_some]
    | false =>
      rw [han] at hus
      obtain rfl := writes_nil hus
      have has : afterWord? "AS" (t :: rest) = none :=
        afterWord?_of_isWord_eq_false (Name.isWord_eq_false ht (by decide)) _
      have hstop : (atBoundary fromStop (t :: rest) || t.isChar ',') = false := by
        rw [Name.atBoundary_eq_false ht reserved_of_fromStop,
          Name.isChar_eq_false ht (by decide : isPunctuation ',' = true)]
        rfl
      simp only [List.cons_append, List.nil_append, tableAlias, has, hstop, Bool.false_eq_true,
        if_false, htext, Option.map_some]

/-- The table list skips commas, and is ended by what ends FROM. -/
theorem tableRefs_comma {t : Token} (ht : t.text = ",") (rest : List Token) :
    tableRefs (t :: rest) = tableRefs rest := by
  have hcomma : t.isChar ',' = true := by rw [Token.isChar, ht]; decide
  rw [tableRefs.eq_def]
  simp only [atBoundary_comma ht reserved_of_fromStop, hcomma, Bool.false_eq_true, if_false,
    if_true]

theorem tableRefs_of_atBoundary {rest : List Token} (h : atBoundary fromStop rest = true) :
    tableRefs rest = .ok ([], rest) := by
  rw [tableRefs.eq_def]
  cases rest with
  | nil => rfl
  | cons t ts => simp only [h, if_true]

/-- One step of the table list. -/
theorem tableRefs_cons {t : Token} {rest behind : List Token} {aliasName : Option String}
    (hstop : atBoundary fromStop (t :: rest) = false) (hcomma : t.isChar ',' = false)
    (halias : tableAlias rest = .ok (aliasName, behind)) :
    tableRefs (t :: rest) =
      (tableRefs behind).map fun (refs, ts) => (⟨t.text, aliasName⟩ :: refs, ts) := by
  rw [tableRefs.eq_def]
  simp only [hstop, hcomma, Bool.false_eq_true, if_false]
  split
  · rename_i herror
    rw [halias] at herror
    cases herror
  · rename_i hok
    rw [halias] at hok
    obtain ⟨rfl, rfl⟩ := Prod.mk.inj (Except.ok.inj hok)
    rfl

theorem tableRefs_source (s : Source) {ts rest : List Token} (hw : Writes s.pieces ts)
    (hrest : Separates (atBoundary fromStop · = true) rest) :
    tableRefs (ts ++ rest) =
      (tableRefs rest).map fun (refs, behind) => (s.ref :: refs, behind) := by
  obtain ⟨t, us, rfl, ht, hus⟩ := writes_cons hw
  have hstop := Name.atBoundary_eq_false ht reserved_of_fromStop (us ++ rest)
  have hcomma : t.isChar ',' = false := Name.isChar_eq_false ht (by decide)
  rw [List.cons_append, tableRefs_cons hstop hcomma (tableAlias_of_writes s hus hrest),
    show t.text = s.table.text from ht]
  rfl

/-- The tables of FROM are read back. -/
theorem tableRefs_of_writes (sources : List Source) {ts rest : List Token}
    (hw : Writes (commaSeparated (sources.map (·.pieces))) ts)
    (hrest : atBoundary fromStop rest = true) :
    tableRefs (ts ++ rest) = .ok (sources.map (·.ref), rest) := by
  have hitem : ∀ (s : Source) ts rest, Writes s.pieces ts →
      Separates (atBoundary fromStop · = true) rest → tableRefs (ts ++ rest) =
        (tableRefs rest).map fun (refs, behind) => (s.ref :: refs, behind) :=
    fun s _ _ => tableRefs_source s
  exact read_commaSeparated tableRefs (fun _ rest ht => tableRefs_comma ht rest)
    (fun _ => tableRefs_of_atBoundary) hitem sources hw hrest

/-- The words that may open what follows the joins. -/
def clauseStart : List String := ["WHERE", "GROUP", "HAVING", "ORDER", "LIMIT", "OFFSET"]

theorem joinKind_of_writes (o : Opening) {ts : List Token} (hw : Writes o.pieces ts)
    (rest : List Token) :
    ∃ t us, ts = t :: us ∧ t.isAnyWord joinStart = true ∧
      joinKind t (us ++ rest) = .ok (o.joinKind, rest) := by
  cases o with
  | plain =>
    obtain ⟨t, us, rfl, ht, hus⟩ := writes_cons hw
    obtain rfl := writes_nil hus
    refine ⟨t, [], rfl, List.any_eq_true.mpr ⟨"JOIN", by decide, ht⟩, ?_⟩
    rw [joinKind, show t.isWord "JOIN" = true from ht]
    rfl
  | ofKind kind outer =>
    obtain ⟨t, ws, rfl, ht, hws⟩ := writes_cons hw
    obtain ⟨us, vs, rfl, hus, hvs⟩ := writes_append hws
    obtain ⟨j, vs, rfl, hj, hvs⟩ := writes_cons hvs
    obtain rfl := writes_nil hvs
    have hkind : kind.text ∈ joinStart ∧ Text.sameWord kind.text "JOIN" = false := by
      cases kind <;> decide
    have hnoJoin : t.isWord "JOIN" = false := by rw [Token.isWord_congr ht, hkind.2]
    have hskip : skipWord "OUTER" (us ++ [j] ++ rest) = j :: rest := by
      cases outer with
      | true =>
        obtain ⟨u, us, rfl, hu, hus⟩ := writes_cons hus
        obtain rfl := writes_nil hus
        have hafter := afterWord?_of_isWord hu (j :: rest)
        simp only [skipWord, List.cons_append, List.nil_append, hafter, Option.getD_some]
      | false =>
        obtain rfl := writes_nil hus
        have hafter : afterWord? "OUTER" (j :: rest) = none :=
          afterWord?_of_isWord_eq_false (by rw [Token.isWord_congr hj]; decide) _
        simp only [skipWord, List.cons_append, List.nil_append, hafter, Option.getD_none]
    refine ⟨t, us ++ [j], rfl, List.any_eq_true.mpr ⟨kind.text, hkind.1, ht⟩, ?_⟩
    rw [joinKind, hnoJoin, if_neg Bool.false_ne_true, hskip, afterWord?_of_isWord hj,
      JoinKind.ofWord?_eq_some ht]
    rfl

theorem onClause_of_writes {left operator right : Name} (table : String) {ts rest : List Token}
    (hw : Writes [.keyword "ON", .exact left.text, .exact operator.text, .exact right.text] ts)
    (hrest : atConnector rest = false) :
    onClause table (ts ++ rest) = .ok (⟨left.text, operator.text, right.text⟩, rest) ∧
      atBoundary fromStop (ts ++ rest) = true := by
  obtain ⟨t, us, rfl, ht, hus⟩ := writes_cons hw
  obtain ⟨l, us, rfl, hl, hus⟩ := writes_cons hus
  obtain ⟨o, us, rfl, ho, hus⟩ := writes_cons hus
  obtain ⟨r, us, rfl, hr, hus⟩ := writes_cons hus
  obtain rfl := writes_nil hus
  have hafter : afterWord? "ON" (t :: l :: o :: r :: rest) = some (l :: o :: r :: rest) :=
    afterWord?_of_isWord ht _
  refine ⟨?_, atBoundary_cons_of_isWord ht (by decide) _⟩
  simp only [onClause, List.cons_append, List.nil_append, hafter, hrest, Bool.false_eq_true,
    if_false]
  rw [show l.text = left.text from hl, show o.text = operator.text from ho,
    show r.text = right.text from hr]

/-- A join is read back. -/
theorem joinClause_of_writes (j : Joined) {ts rest : List Token} (hw : Writes j.pieces ts)
    (hrest : atConnector rest = false) :
    ∃ t us, ts = t :: us ∧ t.isAnyWord joinStart = true ∧
      joinClause t (us ++ rest) = .ok (j.join, rest) := by
  obtain ⟨us, ons, rfl, hus, hons⟩ := writes_append hw
  obtain ⟨us, ss, rfl, hus, hss⟩ := writes_append hus
  obtain ⟨t, vs, rfl, hstart, hkind⟩ := joinKind_of_writes j.opening hus (ss ++ (ons ++ rest))
  obtain ⟨u, ws, rfl, hu, hws⟩ := writes_cons hss
  obtain ⟨hon, hstop⟩ := onClause_of_writes u.text hons hrest
  have halias := tableAlias_of_writes j.source hws (.inl hstop)
  refine ⟨t, vs ++ (u :: ws) ++ ons, by simp, hstart, ?_⟩
  rw [List.append_assoc, List.append_assoc, joinClause, hkind]
  simp only [bind, Except.bind, joinTail, List.cons_append,
    Name.atBoundary_eq_false hu reserved_of_fromStop, Bool.false_eq_true, if_false, halias, hon,
    pure, Except.pure]
  rw [show u.text = j.source.table.text from hu]
  rfl

/-- No join is read where none is opened. -/
theorem joinClauses_of_head? {rest : List Token}
    (h : ∀ t ∈ rest.head?, t.isAnyWord joinStart = false) : joinClauses rest = .ok ([], rest) := by
  rw [joinClauses.eq_def]
  cases rest with
  | nil => rfl
  | cons t ts =>
    simp only [h t rfl, Bool.false_eq_true, if_false]

/-- One step of the joins. -/
theorem joinClauses_cons {t : Token} {rest behind : List Token} {join : Join}
    (hstart : t.isAnyWord joinStart = true) (hjoin : joinClause t rest = .ok (join, behind)) :
    joinClauses (t :: rest) =
      (joinClauses behind).map fun (joins, ts) => (join :: joins, ts) := by
  rw [joinClauses.eq_def]
  simp only [hstart, if_true]
  split
  · rename_i herror
    rw [hjoin] at herror
    cases herror
  · rename_i hok
    rw [hjoin] at hok
    obtain ⟨rfl, rfl⟩ := Prod.mk.inj (Except.ok.inj hok)
    rfl

/-- The joins are read back. -/
theorem joinClauses_of_writes : ∀ (joins : List Joined) {ts rest : List Token},
    Writes (joins.flatMap (·.pieces)) ts → atBoundary clauseStart rest = true →
      joinClauses (ts ++ rest) = .ok (joins.map (·.join), rest) ∧
        atBoundary (joinStart ++ clauseStart) (ts ++ rest) = true
  | [], ts, rest, hw, hrest => by
    obtain rfl := writes_nil hw
    refine ⟨joinClauses_of_head? fun t ht => ?_,
      atBoundary_mono (fun _ => List.mem_append_right _) hrest⟩
    obtain ⟨ts, rfl⟩ := List.head?_eq_some_iff.mp ht
    rw [Token.isAnyWord, List.any_eq_false]
    intro word hm
    rw [isWord_of_atBoundary hrest]
    · exact Bool.false_ne_true
    · revert word
      decide
  | j :: joins, _, rest, hw, hrest => by
    obtain ⟨us, vs, rfl, hus, hvs⟩ := writes_append hw
    obtain ⟨hread, hstop⟩ := joinClauses_of_writes joins hvs hrest
    obtain ⟨t, us, rfl, hstart, hjoin⟩ :=
      joinClause_of_writes j hus (connector_of_atBoundary hstop (by decide)).2
    obtain ⟨word, hm, hword⟩ := List.any_eq_true.mp hstart
    rw [List.append_assoc, List.cons_append]
    refine ⟨?_, atBoundary_cons_of_isWord hword (List.mem_append_left _ hm) _⟩
    rw [joinClauses_cons hstart hjoin, hread]
    rfl

end Sql
end DocumentSql
