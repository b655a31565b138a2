/-
# Ending a session

The words `.exit` and `.quit` end a session between statements, which for a
session means that it holds no text. It holds none at its start and right behind
the last line of a statement, and some behind every other line
(`Session.isBetween_statements_iff`). So such a word on a line of its own ends
the session if that line is the first one or follows the last line of a
statement; then nothing from that line on is done (`Session.endsBetween_of_isExit`).
Behind any other line, a blank one included, it becomes part of a statement
(`Session.goesOn_exit_behind_blank`).

Key definition: `Session.EndsBetween`.
Key theorems: `Session.isBetween_statements_iff`, `Session.endsBetween_of_isExit`.
-/
import DocumentSql.Proofs.Shell.Acts
import Mathlib.Data.List.Induction

namespace DocumentSql
namespace Session

theorem endsStatement_of_isExit {line : String} (h : isExit line = true) :
    endsStatement line = false := by
  rw [isExit, Bool.or_eq_true, beq_iff_eq, beq_iff_eq] at h
  have htrim : (Text.trim line).toList = Text.trimChars line.toList := String.toList_ofList
  rw [endsStatement, ← htrim]
  rcases h with h | h
  · rw [h]
    decide
  · rw [h]
    decide

theorem isBetween_statements_iff {lines : List String} (h : start.goesOn lines = true) :
    (start.statements lines).2.isBetween = true ↔
      ∀ last ∈ lines.getLast?, endsStatement last = true := by
  cases lines using List.reverseRecOn with
  | nil => simp [statements, isBetween_start]
  | append_singleton lines line =>
    rw [goesOn_append, Bool.and_eq_true] at h
    rw [statements_append h.1]
    have hstop := goesOn_singleton_iff.mp h.2
    cases hends : endsStatement line with
    | true =>
      have hfeed := feed_of_endsStatement hstop hends
      simp [statements, hfeed, isBetween_start, hends]
    | false =>
      have hfeed := feed_of_not_endsStatement hstop hends
      simp [statements, hfeed, isBetween_concat, hends]

theorem goesOn_singleton_exit {line : String} (h : isExit line = true) (s : Session) :
    s.goesOn [line] = !s.isBetween := by
  rw [Bool.eq_iff_iff, goesOn_singleton_iff, Ne, feed_eq_stop_iff, h]
  simp

/-- What a word that ends sessions does on a line of its own, behind the lines `before`. -/
structure EndsBetween (before : List String) (line : String) : Prop where
  /-- The session is over behind the line if it was over before, if there is no line before, or if
  the one before ends a statement. -/
  goesOn_iff : start.goesOn (before ++ [line]) = false ↔
    start.goesOn before = false ∨ ∀ last ∈ before.getLast?, endsStatement last = true
  /-- If it is over, all is done as if this line and those behind it were not there. -/
  acts_eq : start.goesOn (before ++ [line]) = false →
    ∀ behind, start.acts (before ++ line :: behind) = start.acts before
  runLines_eq : start.goesOn (before ++ [line]) = false →
    ∀ (behind : List String) {m : Type → Type} [Monad m] [LawfulMonad m] (p : Program)
      (t : Terminal m), p.runLines t start (before ++ line :: behind) = p.runLines t start before
  /-- If it is not, the line is one more of the statement that is not complete. -/
  statements_eq : start.goesOn (before ++ [line]) = true →
    start.statements (before ++ [line]) =
      ((start.statements before).1, ⟨(start.statements before).2.buffer ++ line ++ "\n"⟩)

/-- **A session is ended between statements.** The word is heeded as the first line and behind the
last line of a statement, and nowhere else. -/
theorem endsBetween_of_isExit (before : List String) {line : String} (h : isExit line = true) :
    EndsBetween before line where
  goesOn_iff := by
    rw [goesOn_append, goesOn_singleton_exit h]
    cases hbefore : start.goesOn before with
    | false => simp
    | true =>
      rw [← isBetween_statements_iff hbefore]
      simp
  acts_eq hover behind := acts_append_of_not_goesOn hover behind
  runLines_eq hover behind m _ _ p t := by
    rw [p.runLines_eq_performAll, p.runLines_eq_performAll, acts_append_of_not_goesOn hover]
  statements_eq hon := by
    rw [goesOn_append, Bool.and_eq_true] at hon
    have hstop := goesOn_singleton_iff.mp hon.2
    have hfeed := feed_of_not_endsStatement hstop (endsStatement_of_isExit h)
    rw [statements_append hon.1]
    simp [statements, hfeed]

theorem endsBetween_behind_statement :
    isExit " .quit\t" = true ∧ start.goesOn ["SELECT id", "FROM users; ", " .quit\t"] = false ∧
      EndsBetween ["SELECT id", "FROM users; "] " .quit\t" := by
  have hexit : isExit " .quit\t" = true := by decide
  exact ⟨hexit, by decide, endsBetween_of_isExit _ hexit⟩

/-- A blank line begins a statement, though it writes nothing. The word behind it does not end the
session, and is run with the lines that follow. -/
theorem goesOn_exit_behind_blank :
    isExit ".exit" = true ∧ Text.trim "" = "" ∧ (start.statements [""]).1 = [] ∧
      start.goesOn ["", ".exit"] = true ∧
      start.acts ["", ".exit", "DELETE FROM users;"] =
        [.ask "sql> ", .ask "...  ", .ask "...  ", .run "\n.exit\nDELETE FROM users;\n",
          .ask "sql> "] := by
  decide

end Session
end DocumentSql
