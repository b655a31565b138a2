/-
# Sessions lose no line

The lines that a session reads are those of its statements, one statement
behind the other, and those of a statement that is not complete when the lines
end (`Session.IsDivision`). A statement goes up to the first line that ends in
`;`. Behind these lines there are no more, or the next one ends the session, and
then nothing is left over.

A session that has read some lines of a statement holds their text
(`Session.textOf`), and every line either joins them, or completes them to a
statement, or ends the session. By induction on the lines, the statements and
the rest together are the text of the lines that were read
(`Session.exists_division`, `Session.exists_isAccount`).

A statement whose result cannot be written ends the program behind the last line
of the statement. Then the lines up to this one are all that are read, and they
are those of the statements up to this one.

Key definitions: `Session.textOf`, `Session.IsStatement`, `Session.IsDivision`,
`Session.IsAccount`.
Key theorems: `Session.exists_division`, `Session.exists_isAccount`.
-/
import DocumentSql.Proofs.Shell.Failures
import Mathlib.Data.List.Induction

namespace DocumentSql
namespace Session

/-- The lines with a line feed behind each. -/
def textOf (lines : List String) : String := String.join (lines.map (· ++ "\n"))

/-- Lines that are a statement: the last one ends it, and none in front of that one does. -/
def IsStatement (lines : List String) : Prop :=
  ∃ before last, lines = before ++ [last] ∧ endsStatement last = true ∧
    ∀ line ∈ before, endsStatement line = false

/-- The lines of a session are those of the statements, those of one that is not complete, and
those that are not read. -/
structure IsDivision (lines : List String) (groups : List (List String))
    (unfinished unread : List String) : Prop where
  lines_eq : lines = groups.flatten ++ unfinished ++ unread
  isStatement : ∀ group ∈ groups, IsStatement group
  not_endsStatement : ∀ line ∈ unfinished, endsStatement line = false
  /-- No statement begins with a line that ends the session. -/
  not_isExit : ∀ group ∈ unfinished :: groups, ∀ first ∈ group.head?, isExit first = false
  /-- Lines are left only behind one that ends the session, which it does between statements. -/
  unread_cases : unread = [] ∨
    unfinished = [] ∧ ∃ line rest, unread = line :: rest ∧ isExit line = true

/-- What is asked for as many lines of a statement. -/
def asks : Nat → List Act
  | 0 => []
  | n + 1 => .ask "sql> " :: List.replicate n (.ask "...  ")

/-- What a session does on the lines of a statement. -/
def statementActs (group : List String) : List Act :=
  asks group.length ++ [.run (textOf group)]

/-- What a session does on lines that are so divided: at the end it asks for one more line. -/
def divisionActs (groups : List (List String)) (unfinished : List String) : List Act :=
  groups.flatMap statementActs ++ asks (unfinished.length + 1)

/-! ### Texts of lines -/

theorem start_eq : start = ⟨textOf []⟩ := rfl

theorem textOf_append (lines more : List String) :
    textOf (lines ++ more) = textOf lines ++ textOf more := by
  rw [textOf, List.map_append, String.join_append, textOf, textOf]

theorem textOf_concat (lines : List String) (line : String) :
    textOf (lines ++ [line]) = textOf lines ++ line ++ "\n" := by
  rw [textOf_append, String.append_assoc]
  simp [textOf]

theorem join_map_textOf (groups : List (List String)) :
    String.join (groups.map textOf) = textOf groups.flatten := by
  induction groups with
  | nil => rfl
  | cons group groups ih =>
    rw [List.map_cons, String.join_cons, ih, List.flatten_cons, textOf_append]

theorem isBetween_textOf (lines : List String) :
    isBetween ⟨textOf lines⟩ = lines.isEmpty := by
  cases lines using List.reverseRecOn with
  | nil => rfl
  | append_singleton before last =>
    rw [textOf_concat, isBetween_concat]
    simp

theorem asks_zero : asks 0 = [] := rfl

theorem asks_succ (lines : List String) :
    asks (lines.length + 1) = asks lines.length ++ [.ask (prompt ⟨textOf lines⟩)] := by
  rw [prompt, isBetween_textOf]
  cases lines with
  | nil => rfl
  | cons line rest =>
    simp [asks, List.replicate_succ']

/-! ### Divisions -/

/-- A line that ends the session leaves it and all lines behind it unread. -/
theorem IsDivision.of_exit {line : String} (h : isExit line = true) (rest : List String) :
    IsDivision (line :: rest) [] [] (line :: rest) where
  lines_eq := rfl
  isStatement := List.forall_mem_nil _
  not_endsStatement := List.forall_mem_nil _
  not_isExit := by simp
  unread_cases := .inr ⟨rfl, line, rest, rfl, h⟩

/-- A statement may stand in front of the lines. -/
theorem IsDivision.cons {group lines : List String} {groups : List (List String)}
    {unfinished unread : List String} (hgroup : IsStatement group)
    (hexit : ∀ first ∈ group.head?, isExit first = false)
    (h : IsDivision lines groups unfinished unread) :
    IsDivision (group ++ lines) (group :: groups) unfinished unread where
  lines_eq := by simp [h.lines_eq]
  isStatement := List.forall_mem_cons.mpr ⟨hgroup, h.isStatement⟩
  not_endsStatement := h.not_endsStatement
  not_isExit := by
    have hrest := List.forall_mem_cons.mp h.not_isExit
    exact List.forall_mem_cons.mpr ⟨hrest.1, List.forall_mem_cons.mpr ⟨hexit, hrest.2⟩⟩
  unread_cases := h.unread_cases

/-- The lines that a session holds begin a statement: none of them ends it, and the first one did
not end the session. -/
structure IsPending (lines : List String) : Prop where
  not_endsStatement : ∀ line ∈ lines, endsStatement line = false
  not_isExit : ∀ first ∈ lines.head?, isExit first = false

theorem IsPending.nil : IsPending [] := ⟨List.forall_mem_nil _, by simp⟩

/-- A line that does not stop the session keeps the first one of its statement from being an
exit. -/
theorem IsPending.not_isExit_concat {pending : List String} (h : IsPending pending) {line : String}
    (hstop : feed ⟨textOf pending⟩ line ≠ .stop) :
    ∀ first ∈ (pending ++ [line]).head?, isExit first = false := by
  rw [Ne, feed_eq_stop_iff, isBetween_textOf, not_and, Bool.not_eq_true] at hstop
  cases pending with
  | nil => simpa using hstop rfl
  | cons first rest => exact h.not_isExit

/-- **Every line has its place.** A session that holds some lines of a statement divides these and
those that come, and has collected the statements of that division. -/
theorem exists_division {pending : List String} (h : IsPending pending) (lines : List String) :
    ∃ groups unfinished unread, IsDivision (pending ++ lines) groups unfinished unread ∧
      statements ⟨textOf pending⟩ lines = (groups.map textOf, ⟨textOf unfinished⟩) ∧
      asks pending.length ++ acts ⟨textOf pending⟩ lines = divisionActs groups unfinished := by
  induction lines generalizing pending with
  | nil =>
    refine ⟨[], pending, [], ⟨by simp, List.forall_mem_nil _, h.not_endsStatement, ?_, .inl rfl⟩,
      rfl, (asks_succ pending).symm⟩
    simpa using h.not_isExit
  | cons line rest ih =>
    by_cases hstop : feed ⟨textOf pending⟩ line = .stop
    · obtain ⟨hbetween, hexit⟩ := (feed_eq_stop_iff _ _).mp hstop
      rw [isBetween_textOf, List.isEmpty_iff] at hbetween
      subst hbetween
      refine ⟨[], [], line :: rest, .of_exit hexit rest, ?_, ?_⟩
      · simp only [statements, hstop]
        rfl
      · simp only [acts, hstop]
        rfl
    have hconcat := h.not_isExit_concat hstop
    have hasks := asks_succ pending
    cases hends : endsStatement line with
    | true =>
      -- the statement is complete, and nothing is pending behind it
      have hgroup : IsStatement (pending ++ [line]) :=
        ⟨pending, line, rfl, hends, h.not_endsStatement⟩
      have hfeed := feed_of_endsStatement hstop hends
      rw [← textOf_concat] at hfeed
      obtain ⟨groups, unfinished, unread, hdivision, hstatements, hacts⟩ := ih IsPending.nil
      refine ⟨(pending ++ [line]) :: groups, unfinished, unread, ?_, ?_, ?_⟩
      · rw [← List.singleton_append, ← List.append_assoc]
        exact hdivision.cons hgroup hconcat
      · simp only [statements, hfeed]
        rw [start_eq, hstatements, List.map_cons]
      · simp only [acts, hfeed]
        rw [divisionActs, List.flatMap_cons, List.append_assoc, ← divisionActs, ← hacts,
          statementActs, List.length_append, List.length_singleton, hasks]
        simp [asks_zero, start_eq]
    | false =>
      have hfeed := feed_of_not_endsStatement hstop hends
      rw [← textOf_concat] at hfeed
      have hpending : IsPending (pending ++ [line]) :=
        ⟨List.forall_mem_append.mpr ⟨h.not_endsStatement, by simpa using hends⟩, hconcat⟩
      obtain ⟨groups, unfinished, unread, hdivision, hstatements, hacts⟩ := ih hpending
      refine ⟨groups, unfinished, unread, ?_, ?_, ?_⟩
      · rwa [List.append_assoc] at hdivision
      · simpa only [statements, hfeed] using hstatements
      · simp only [acts, hfeed]
        rw [← hacts]
        simp [hasks]

/-! ### Divisions on a machine -/

section Machines

variable {p : Program}

theorem result_asks_fst (n : Nat) (w : Machine) : (p.result (asks n) w).1 = 0 := by
  have hreplicate : ∀ n w, (p.result (List.replicate n (.ask "...  ")) w).1 = 0 := by
    intro n
    induction n with
    | zero => exact fun _ => rfl
    | succ n ih =>
      intro w
      rw [List.replicate_succ, p.result_ask]
      exact ih _
  cases n with
  | zero => rfl
  | succ n => exact hreplicate n _

theorem result_statementActs_fst {group : List String} {w : Machine}
    (h : ¬ p.Aborts (textOf group) (p.after (asks group.length) w)) :
    (p.result (statementActs group) w).1 = 0 := by
  unfold Program.Aborts at h
  rw [statementActs, p.result_append_of_eq_zero (result_asks_fst _ w), p.result_run, if_neg h]
  rfl

/-- A session that no statement ends goes through all its statements. -/
theorem result_divisionActs_fst {groups : List (List String)} {w : Machine}
    (h : ∀ before group behind, groups = before ++ group :: behind →
      ¬ p.Aborts (textOf group) (p.after (before.flatMap statementActs ++ asks group.length) w))
    (unfinished : List String) : (p.result (divisionActs groups unfinished) w).1 = 0 := by
  induction groups generalizing w with
  | nil => exact result_asks_fst (unfinished.length + 1) w
  | cons first groups ih =>
    have hfirst := result_statementActs_fst (h [] first groups rfl)
    rw [divisionActs, List.flatMap_cons, List.append_assoc, ← divisionActs,
      p.result_append_of_eq_zero hfirst]
    apply ih
    rintro before group behind rfl
    have hlater := h (first :: before) group behind rfl
    rw [List.flatMap_cons, List.append_assoc] at hlater
    unfold Program.after at hlater ⊢
    rwa [p.result_append_of_eq_zero hfirst] at hlater

end Machines

/-! ### What becomes of the lines -/

/-- The lines of a session, so divided, are what it runs and what it is left with. -/
structure IsAccount (lines : List String) (groups : List (List String))
    (unfinished unread : List String) : Prop where
  isDivision : IsDivision lines groups unfinished unread
  /-- Each statement is the text of its lines, and the others that were read are left over. -/
  statements_eq : start.statements lines = (groups.map textOf, ⟨textOf unfinished⟩)
  /-- Together they are the text of all lines that were read. -/
  join_eq : String.join ((start.statements lines).1 ++ [(start.statements lines).2.buffer]) =
    textOf (groups.flatten ++ unfinished)
  /-- One line is asked for after the other, and each statement is run behind its last line. -/
  acts_eq : start.acts lines = divisionActs groups unfinished
  /-- On every terminal this is what is done, up to a statement that ends the program. -/
  runLines_eq : ∀ {m : Type → Type} [Monad m] [LawfulMonad m] (p : Program) (t : Terminal m),
    p.runLines t start lines = p.performAll t (start.acts lines)
  /-- Behind a statement that fails all is done as if it had not been there. -/
  isAlike_of_fails : ∀ (p : Program) (w : Machine) (before : List Act) (statement : String)
    (behind : List Act), start.acts lines = before ++ .run statement :: behind →
      p.Fails statement (p.after before w) →
        (p.result (start.acts lines) w).1 = (p.result (before ++ behind) w).1 ∧
          (p.after (start.acts lines) w).IsAlike (p.after (before ++ behind) w)
  /-- Behind a statement whose result cannot be written no line is asked for and nothing is run. -/
  result_of_aborts : ∀ (p : Program) (w : Machine) (before : List (List String))
    (group : List String) (behind : List (List String)), groups = before ++ group :: behind →
      p.Aborts (textOf group) (p.after (before.flatMap statementActs ++ asks group.length) w) →
        p.result (start.acts lines) w =
          (101, p.after ((before ++ [group]).flatMap statementActs) w)
  /-- Without such a statement the session is gone through, and the exit code is zero. -/
  result_fst_eq_zero : ∀ (p : Program) (w : Machine),
    (∀ (before : List (List String)) (group : List String) (behind : List (List String)),
      groups = before ++ group :: behind →
        ¬ p.Aborts (textOf group) (p.after (before.flatMap statementActs ++ asks group.length) w)) →
      (p.result (start.acts lines) w).1 = 0

/-- **No line is lost and none is used twice.** -/
theorem exists_isAccount (lines : List String) :
    ∃ groups unfinished unread, IsAccount lines groups unfinished unread := by
  obtain ⟨groups, unfinished, unread, hdivision, hstatements, hacts⟩ :=
    exists_division IsPending.nil lines
  have hacts : start.acts lines = divisionActs groups unfinished := hacts
  refine ⟨groups, unfinished, unread, hdivision, hstatements, ?_, hacts, ?_, ?_, ?_, ?_⟩
  · rw [start_eq, hstatements, String.join_append, join_map_textOf, textOf_append]
    simp
  · intro m _ _ p t
    exact p.runLines_eq_performAll t start lines
  · intro p w before statement behind hsplit hfails
    rw [hsplit]
    exact p.isAlike_of_fails hfails behind
  · intro p w before group behind hgroups haborts
    have hsplit : start.acts lines =
        (before.flatMap statementActs ++ asks group.length) ++
          .run (textOf group) :: divisionActs behind unfinished := by
      rw [hacts, hgroups]
      simp [divisionActs, statementActs]
    rw [hsplit, p.result_of_aborts haborts]
    simp [statementActs]
  · intro p w hgoes
    rw [hacts]
    exact result_divisionActs_fst hgoes unfinished

/-- A word that ends sessions is a line like any other within a statement. -/
example : start.acts ["SELECT id", ".exit", "FROM users; ", ".quit", ";"] =
    [.ask "sql> ", .ask "...  ", .ask "...  ", .run "SELECT id\n.exit\nFROM users; \n",
      .ask "sql> "] := by decide

end Session
end DocumentSql
