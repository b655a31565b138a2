/-
# Statements that fail

A statement that does not go well, be it that it fails or that its result cannot
be written, puts out a message on the error output and leaves the machine as it
was otherwise (`Program.exists_complain`). What was put out there has no bearing
on what comes later: machines that differ in nothing else stay alike, whatever is
done on both (`Machine.IsAlike.runStatement`, `Machine.IsAlike.result`). So a
session goes on behind a statement that has failed as if it had not been there
(`Program.isAlike_of_fails`).

Behind a statement whose result cannot be written nothing is done any more
(`Program.result_of_aborts`).

Key definitions: `Machine.IsAlike`, `Program.result`, `Program.after`,
`Program.Fails`, `Program.Aborts`.
Key theorems: `Program.runStatement_cases`, `Program.result_append`,
`Program.isAlike_of_fails`, `Program.result_of_aborts`.
-/
import DocumentSql.Proofs.Shell.Acts

namespace DocumentSql

namespace Machine

/-- The machines differ at most in what they have put out about errors. -/
structure IsAlike (w w' : Machine) : Prop where
  files : w.files = w'.files
  input : w.input = w'.input
  output : w.output = w'.output

theorem IsAlike.refl (w : Machine) : w.IsAlike w := ⟨rfl, rfl, rfl⟩

theorem isAlike_complain (text : String) (w : Machine) : (w.complain text).IsAlike w :=
  ⟨rfl, rfl, rfl⟩

theorem IsAlike.complain {w w' : Machine} (h : w.IsAlike w') (text text' : String) :
    (w.complain text).IsAlike (w'.complain text') := ⟨h.files, h.input, h.output⟩

theorem IsAlike.print {w w' : Machine} (h : w.IsAlike w') (text : String) :
    (w.print text).IsAlike (w'.print text) :=
  ⟨h.files, h.input, congrArg (· ++ text) h.output⟩

/-- What cannot be written to a place changes nothing. -/
theorem writeAt_of_error {l : Location} {text : String} {w w' : Machine} {e : FileError}
    (h : w.writeAt l text = (.error e, w')) : w' = w := by
  unfold writeAt at h
  cases hdevice : Device.at? l with
  | none =>
    cases hfiles : w.files.writeAt l text with
    | error _ =>
      simp only [hdevice, hfiles, Prod.mk.injEq] at h
      exact h.2.symm
    | ok files => simp [hdevice, hfiles] at h
  | some device =>
    cases device with
    | sink | input | output | errors => simp [hdevice] at h
    | full | noTerminal =>
      simp only [hdevice, Prod.mk.injEq] at h
      exact h.2.symm

theorem write_of_error {path text : String} {w w' : Machine} {e : FileError}
    (h : w.write path text = (.error e, w')) : w' = w := by
  unfold write at h
  cases htarget : w.files.target path with
  | error _ =>
    simp only [htarget, Prod.mk.injEq] at h
    exact h.2.symm
  | ok l =>
    simp only [htarget] at h
    exact writeAt_of_error h

/-- Machines that are alike take what is written to a place in the same way. -/
theorem IsAlike.writeAt {w w' : Machine} (h : w.IsAlike w') (l : Location) (text : String) :
    (w.writeAt l text).1 = (w'.writeAt l text).1 ∧
      (w.writeAt l text).2.IsAlike (w'.writeAt l text).2 := by
  unfold Machine.writeAt
  rw [h.files]
  cases hdevice : Device.at? l with
  | none =>
    cases hfiles : w'.files.writeAt l text with
    | error _ => exact ⟨rfl, h⟩
    | ok files => exact ⟨rfl, rfl, h.input, h.output⟩
  | some device =>
    cases device with
    | sink | input | full | noTerminal => exact ⟨rfl, h⟩
    | output => exact ⟨rfl, h.print text⟩
    | errors => exact ⟨rfl, h.complain text text⟩

theorem IsAlike.write {w w' : Machine} (h : w.IsAlike w') (path text : String) :
    (w.write path text).1 = (w'.write path text).1 ∧
      (w.write path text).2.IsAlike (w'.write path text).2 := by
  unfold Machine.write
  rw [h.files]
  cases w'.files.target path with
  | error _ => exact ⟨rfl, h⟩
  | ok l => exact h.writeAt l text

end Machine

namespace Program

/-- The exit code and the machine after a program has carried out acts of a session. -/
def result (p : Program) (acts : List Session.Act) (w : Machine) : UInt32 × Machine :=
  (p.performAll Machine.terminal acts).run w

/-- The machine after a program has carried out acts of a session. -/
def after (p : Program) (acts : List Session.Act) (w : Machine) : Machine := (p.result acts w).2

/-- Whether a statement fails on the machine. -/
def Fails (p : Program) (statement : String) (w : Machine) : Prop :=
  ((p.runStatement Machine.terminal statement).run w).1 = .failed

/-- Whether a statement ends the program on the machine, since its result cannot be written. -/
def Aborts (p : Program) (statement : String) (w : Machine) : Prop :=
  ((p.runStatement Machine.terminal statement).run w).1 = .aborted

/-- Saves a text at a path and tells so, or what is in the way of it. -/
def save (path text line : String) (w : Machine) : Outcome × Machine :=
  match w.write path text with
  | (.error e, w') => (.failed, w'.complain ("Error: " ++ e.message ++ "\n"))
  | (.ok _, w') => (.done, w'.print line)

variable (p : Program)

/-! ### One statement -/

theorem deliver_cases (answer : Answer) :
    (∃ message, ∀ w, (p.deliver Machine.terminal answer).run w =
      (.aborted, w.complain message)) ∨
    (∃ text, ∀ w, (p.deliver Machine.terminal answer).run w = (.done, w.print text)) ∨
    ∃ path text line, ∀ w, (p.deliver Machine.terminal answer).run w = save path text line w := by
  unfold deliver
  cases p.arguments.output with
  | none =>
    cases Report.renderLine? p.arguments.format answer with
    | none => exact .inl ⟨_, fun _ => rfl⟩
    | some text => exact .inr (.inl ⟨text, fun _ => rfl⟩)
  | some path =>
    cases Report.render? p.arguments.format answer with
    | none => exact .inl ⟨_, fun _ => rfl⟩
    | some text =>
      refine .inr (.inr ⟨path, text, savedLine answer.rowCount path, fun w => ?_⟩)
      have hrun : (Machine.terminal.write path text).run w = w.write path text := rfl
      simp only [StateT.run_bind, hrun]
      unfold save
      rcases w.write path text with ⟨e | _, w'⟩ <;> rfl

/-- Whatever the machine, a statement puts out a message on the error output, or it prints a text,
or it saves one. -/
theorem runStatement_cases (statement : String) :
    (∃ outcome message, outcome ≠ .done ∧ ∀ w,
      (p.runStatement Machine.terminal statement).run w = (outcome, w.complain message)) ∨
    (∃ text, ∀ w, (p.runStatement Machine.terminal statement).run w = (.done, w.print text)) ∨
    ∃ path text line, ∀ w,
      (p.runStatement Machine.terminal statement).run w = save path text line w := by
  have hrun : ∀ w, Machine.terminal.milliseconds.run w = (0, w) := fun _ => rfl
  unfold runStatement
  simp only [StateT.run_bind, hrun]
  cases p.source.answer p.rowCap p.arguments.project statement with
  | error e => exact .inl ⟨.failed, _, by decide, fun _ => rfl⟩
  | ok answer =>
    rcases p.deliver_cases { answer with milliseconds := 0 } with
      ⟨message, h⟩ | ⟨text, h⟩ | ⟨path, text, line, h⟩
    · exact .inl ⟨.aborted, message, by decide, h⟩
    · exact .inr (.inl ⟨text, h⟩)
    · exact .inr (.inr ⟨path, text, line, h⟩)

theorem save_of_ne_done {path text line : String} {w : Machine}
    (h : (save path text line w).1 ≠ .done) :
    ∃ message, (save path text line w).2 = w.complain message := by
  unfold save at h ⊢
  rcases hwrite : w.write path text with ⟨e | _, w'⟩
  · obtain rfl := Machine.write_of_error hwrite
    exact ⟨_, rfl⟩
  · simp [hwrite] at h

/-- A statement that does not go well leaves a message and nothing else. -/
theorem exists_complain {statement : String} {w : Machine}
    (h : ((p.runStatement Machine.terminal statement).run w).1 ≠ .done) :
    ∃ message, ((p.runStatement Machine.terminal statement).run w).2 = w.complain message := by
  rcases p.runStatement_cases statement with
    ⟨outcome, message, -, hrun⟩ | ⟨text, hrun⟩ | ⟨path, text, line, hrun⟩
  · exact ⟨message, by rw [hrun]⟩
  · rw [hrun] at h
    exact absurd rfl h
  · rw [hrun] at h ⊢
    exact save_of_ne_done h

/-! ### Several acts -/

theorem result_ask (prompt : String) (acts : List Session.Act) (w : Machine) :
    p.result (.ask prompt :: acts) w = p.result acts (w.print prompt) := rfl

theorem result_run (statement : String) (acts : List Session.Act) (w : Machine) :
    p.result (.run statement :: acts) w =
      if ((p.runStatement Machine.terminal statement).run w).1 = .aborted then
        (101, ((p.runStatement Machine.terminal statement).run w).2)
      else p.result acts ((p.runStatement Machine.terminal statement).run w).2 := by
  simp only [result, performAll, perform, StateT.run_bind]
  split
  · rename_i haborts
    revert haborts
    rcases (p.runStatement Machine.terminal statement).run w with ⟨outcome, w'⟩
    rintro rfl
    rfl
  · rename_i hgoes
    revert hgoes
    rcases (p.runStatement Machine.terminal statement).run w with ⟨_ | _ | _, w'⟩
    · exact fun _ => rfl
    · exact fun _ => rfl
    · exact fun hgoes => absurd rfl hgoes

/-- Acts behind others are carried out unless the program has ended. -/
theorem result_append (acts more : List Session.Act) (w : Machine) :
    p.result (acts ++ more) w =
      if (p.result acts w).1 = 0 then p.result more (p.after acts w) else p.result acts w := by
  induction acts generalizing w with
  | nil => rfl
  | cons act rest ih =>
    rw [List.cons_append]
    unfold after
    cases act with
    | ask prompt =>
      rw [result_ask, result_ask]
      exact ih _
    | run statement =>
      rw [result_run, result_run]
      split
      · rfl
      · exact ih _

theorem result_append_of_eq_zero {acts : List Session.Act} {w : Machine}
    (h : (p.result acts w).1 = 0) (more : List Session.Act) :
    p.result (acts ++ more) w = p.result more (p.after acts w) := by
  rw [result_append, if_pos h]

theorem result_append_of_ne_zero {acts : List Session.Act} {w : Machine}
    (h : (p.result acts w).1 ≠ 0) (more : List Session.Act) :
    p.result (acts ++ more) w = p.result acts w := by
  rw [result_append, if_neg h]

/-- There are two exit codes of a session. -/
theorem result_fst_of_ne_zero {acts : List Session.Act} {w : Machine}
    (h : (p.result acts w).1 ≠ 0) : (p.result acts w).1 = 101 := by
  induction acts generalizing w with
  | nil => exact absurd rfl h
  | cons act rest ih =>
    cases act with
    | ask prompt => exact ih h
    | run statement =>
      rw [result_run] at h ⊢
      split at h
      · rename_i haborts
        rw [if_pos haborts]
      · rename_i haborts
        rw [if_neg haborts]
        exact ih h

end Program

namespace Machine

variable {w w' : Machine}

theorem IsAlike.save (h : w.IsAlike w') (path text line : String) :
    (Program.save path text line w).1 = (Program.save path text line w').1 ∧
      (Program.save path text line w).2.IsAlike (Program.save path text line w').2 := by
  obtain ⟨hresult, hafter⟩ := h.write path text
  unfold Program.save
  revert hresult hafter
  rcases w.write path text with ⟨e | _, v⟩ <;> rcases w'.write path text with ⟨e' | _, v'⟩
  · exact fun _ hafter => ⟨rfl, hafter.complain _ _⟩
  · exact fun hresult => by cases hresult
  · exact fun hresult => by cases hresult
  · exact fun _ hafter => ⟨rfl, hafter.print _⟩

/-- A statement ends in the same way on machines that are alike, and does the same there. -/
theorem IsAlike.runStatement (h : w.IsAlike w') (p : Program) (statement : String) :
    ((p.runStatement terminal statement).run w).1 =
        ((p.runStatement terminal statement).run w').1 ∧
      ((p.runStatement terminal statement).run w).2.IsAlike
        ((p.runStatement terminal statement).run w').2 := by
  rcases p.runStatement_cases statement with
    ⟨outcome, message, -, hrun⟩ | ⟨text, hrun⟩ | ⟨path, text, line, hrun⟩
  · rw [hrun, hrun]
    exact ⟨rfl, h.complain _ _⟩
  · rw [hrun, hrun]
    exact ⟨rfl, h.print text⟩
  · rw [hrun, hrun]
    exact h.save path text line

/-- Acts of a session do the same on machines that are alike. -/
theorem IsAlike.result (h : w.IsAlike w') (p : Program) (acts : List Session.Act) :
    (p.result acts w).1 = (p.result acts w').1 ∧ (p.after acts w).IsAlike (p.after acts w') := by
  induction acts generalizing w w' with
  | nil => exact ⟨rfl, h⟩
  | cons act rest ih =>
    cases act with
    | ask prompt => exact ih (h.print prompt)
    | run statement =>
      obtain ⟨houtcome, hafter⟩ := h.runStatement p statement
      unfold Program.after
      rw [Program.result_run, Program.result_run, houtcome]
      split
      · exact ⟨rfl, hafter⟩
      · exact ih hafter

end Machine

namespace Program

/-- **A statement that fails might as well not be there.** The acts behind it do what they would do
without it, with the same exit code, and only what has been put out about errors may differ. -/
theorem isAlike_of_fails (p : Program) {before : List Session.Act} {statement : String}
    {w : Machine} (h : p.Fails statement (p.after before w)) (behind : List Session.Act) :
    (p.result (before ++ .run statement :: behind) w).1 = (p.result (before ++ behind) w).1 ∧
      (p.after (before ++ .run statement :: behind) w).IsAlike (p.after (before ++ behind) w) := by
  unfold Fails at h
  unfold after
  by_cases hzero : (p.result before w).1 = 0
  · obtain ⟨message, hmessage⟩ := p.exists_complain (by rw [h]; decide)
    rw [p.result_append_of_eq_zero hzero, p.result_append_of_eq_zero hzero, result_run, h,
      if_neg (by decide), hmessage]
    exact (Machine.isAlike_complain message _).result p behind
  · rw [p.result_append_of_ne_zero hzero, p.result_append_of_ne_zero hzero]
    exact ⟨rfl, .refl _⟩

/-- **A statement whose result cannot be written ends the program.** The acts behind it might as well
not be there. -/
theorem result_of_aborts (p : Program) {before : List Session.Act} {statement : String}
    {w : Machine} (h : p.Aborts statement (p.after before w)) (behind : List Session.Act) :
    p.result (before ++ .run statement :: behind) w =
      (101, p.after (before ++ [.run statement]) w) := by
  unfold Aborts at h
  by_cases hzero : (p.result before w).1 = 0
  · rw [after, p.result_append_of_eq_zero hzero, p.result_append_of_eq_zero hzero, result_run,
      result_run, if_pos h, if_pos h]
  · rw [after, p.result_append_of_ne_zero hzero, p.result_append_of_ne_zero hzero,
      ← p.result_fst_of_ne_zero hzero]

end Program
end DocumentSql
