/-
# What a session does

A session asks for lines and runs statements, and what it does and in which
order follows from its lines alone: a run on a terminal carries out the acts of
the session one after the other and is cut off only by a statement that ends the
program (`Program.runLines_eq_performAll`). The statements among the acts are
those that the session collects (`filterMap_statement?_acts`).

Until a session is over it can be cut between any two lines: it has collected
what the first lines give and goes on from there (`statements_append`). Behind
its end no line matters.

Key definitions: `Session.Act`, `Session.acts`, `Session.goesOn`, `Program.perform`,
`Program.performAll`.
Key theorems: `Program.runLines_eq_performAll`, `Session.statements_append`,
`Session.goesOn_append`.
-/
import DocumentSql.Shell.Program

namespace DocumentSql
namespace Session

/-- Something that a session does. -/
inductive Act where
  /-- It asks for a line. -/
  | ask (prompt : String)
  /-- It runs a statement. -/
  | run (statement : String)
deriving DecidableEq

/-- The statement that is run. -/
def Act.statement? : Act → Option String
  | .ask _ => none
  | .run statement => some statement

/-- What a session does on the lines, up to their end or its own. -/
def acts (s : Session) : List String → List Act
  | [] => [.ask s.prompt]
  | line :: rest =>
    .ask s.prompt ::
      match s.feed line with
      | .stop => []
      | .more next => next.acts rest
      | .run statement next => .run statement :: next.acts rest

/-- Whether the session is not over behind the lines. -/
def goesOn (s : Session) : List String → Bool
  | [] => true
  | line :: rest =>
    match s.feed line with
    | .stop => false
    | .more next => next.goesOn rest
    | .run _ next => next.goesOn rest

/-! ### One line -/

theorem isBetween_start : isBetween start = true := rfl

/-- A session that has taken a line is not between statements, even if the line is blank. -/
theorem isBetween_concat (text line : String) : isBetween ⟨text ++ line ++ "\n"⟩ = false := by
  rw [isBetween, Bool.eq_false_iff, Ne, String.isEmpty_iff, ← String.toList_eq_nil_iff]
  simp

theorem feed_eq_stop_iff (s : Session) (line : String) :
    s.feed line = .stop ↔ s.isBetween = true ∧ isExit line = true := by
  unfold feed
  split
  · rename_i h
    simpa using h
  · rename_i h
    rw [Bool.and_eq_true] at h
    split <;> simp [h]

theorem feed_of_endsStatement {s : Session} {line : String} (hstop : s.feed line ≠ .stop)
    (hends : endsStatement line = true) :
    s.feed line = .run (s.buffer ++ line ++ "\n") start := by
  rw [Ne, feed_eq_stop_iff, ← Bool.and_eq_true] at hstop
  rw [feed, if_neg hstop, if_pos hends]

theorem feed_of_not_endsStatement {s : Session} {line : String} (hstop : s.feed line ≠ .stop)
    (hends : endsStatement line = false) : s.feed line = .more ⟨s.buffer ++ line ++ "\n"⟩ := by
  rw [Ne, feed_eq_stop_iff, ← Bool.and_eq_true] at hstop
  rw [feed, if_neg hstop, hends, if_neg Bool.false_ne_true]

/-! ### Several lines -/

theorem filterMap_statement?_acts (s : Session) (lines : List String) :
    (s.acts lines).filterMap Act.statement? = (s.statements lines).1 := by
  induction lines generalizing s with
  | nil => rfl
  | cons line rest ih =>
    cases hfeed : s.feed line with
    | stop => simp [acts, statements, hfeed, List.filterMap_cons, Act.statement?]
    | more next => simp [acts, statements, hfeed, List.filterMap_cons, Act.statement?, ih]
    | run statement next => simp [acts, statements, hfeed, List.filterMap_cons, Act.statement?, ih]

theorem goesOn_singleton_iff {s : Session} {line : String} :
    s.goesOn [line] = true ↔ s.feed line ≠ .stop := by
  cases hfeed : s.feed line <;> simp [goesOn, hfeed]

theorem goesOn_append (s : Session) (lines more : List String) :
    s.goesOn (lines ++ more) = (s.goesOn lines && (s.statements lines).2.goesOn more) := by
  induction lines generalizing s with
  | nil => rfl
  | cons line rest ih => cases hfeed : s.feed line <;> simp [goesOn, statements, hfeed, ih]

/-- What is collected from further lines does not depend on the lines in front of them. -/
theorem statements_append {s : Session} {lines : List String} (h : s.goesOn lines = true)
    (more : List String) :
    s.statements (lines ++ more) =
      ((s.statements lines).1 ++ ((s.statements lines).2.statements more).1,
        ((s.statements lines).2.statements more).2) := by
  induction lines generalizing s with
  | nil => rfl
  | cons line rest ih =>
    cases hfeed : s.feed line with
    | stop => simp [goesOn, hfeed] at h
    | more next =>
      simp only [goesOn, hfeed] at h
      simp [statements, hfeed, ih h]
    | run statement next =>
      simp only [goesOn, hfeed] at h
      simp [statements, hfeed, ih h]

/-- The line behind which a session is over, and all lines behind that one, might as well not be
there. -/
theorem acts_append_of_not_goesOn {s : Session} {lines : List String} {line : String}
    (h : s.goesOn (lines ++ [line]) = false) (more : List String) :
    s.acts (lines ++ line :: more) = s.acts lines := by
  induction lines generalizing s with
  | nil =>
    rw [List.nil_append] at h ⊢
    cases hfeed : s.feed line with
    | stop => simp [acts, hfeed]
    | more next => simp [goesOn, hfeed] at h
    | run statement next => simp [goesOn, hfeed] at h
  | cons first rest ih =>
    rw [List.cons_append] at h ⊢
    cases hfeed : s.feed first with
    | stop => simp [acts, hfeed]
    | more next =>
      simp only [goesOn, hfeed] at h
      simp [acts, hfeed, ih h]
    | run statement next =>
      simp only [goesOn, hfeed] at h
      simp [acts, hfeed, ih h]

end Session

namespace Program

variable {m : Type → Type} [Monad m]

/-- Carries out an act of a session. -/
def perform (p : Program) (t : Terminal m) : Session.Act → m Outcome
  | .ask prompt => do
    t.print prompt
    return .done
  | .run statement => p.runStatement t statement

/-- Carries out acts up to one that ends the program; the result is the exit code. -/
def performAll (p : Program) (t : Terminal m) : List Session.Act → m UInt32
  | [] => return 0
  | act :: rest => do
    match ← p.perform t act with
    | .aborted => return Outcome.aborted.exitCode
    | _ => p.performAll t rest

/-- **A session carries out its acts.** They depend on the lines only. What comes of a statement
does not matter unless it ends the program. -/
theorem runLines_eq_performAll [LawfulMonad m] (p : Program) (t : Terminal m) (s : Session)
    (lines : List String) : p.runLines t s lines = p.performAll t (s.acts lines) := by
  induction lines generalizing s with
  | nil => simp [runLines, Session.acts, performAll, perform]
  | cons line rest ih =>
    unfold runLines Session.acts takeLine
    cases s.feed line with
    | stop => simp [performAll, perform]
    | more next => simp [performAll, perform, ih]
    | run statement next =>
      simp only [performAll, perform, bind_assoc, pure_bind]
      refine bind_congr fun _ => bind_congr fun outcome => ?_
      cases outcome <;> simp [ih]

end Program
end DocumentSql
