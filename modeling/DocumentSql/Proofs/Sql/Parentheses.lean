/-
# Matching parentheses

Tokens are balanced if every parenthesis in them has its match in them
(`Sql.IsBalanced`). Counting says the same: no parenthesis is closed that was not
opened, and none is open at the end (`Sql.isBalanced_iff`). So the tokens that are
collected up to a close are those in front of the first close with balanced tokens
before it, and nothing is collected exactly if there is no such close.

Key definition: `Sql.IsBalanced`.
Key theorems: `Sql.isBalanced_iff`, `Sql.untilClose_eq_some_iff`,
`Sql.untilClose_eq_none_iff`.
-/
import DocumentSql.Proofs.Sql.Filters
import DocumentSql.Proofs.Sql.RoundTrip

namespace DocumentSql
namespace Sql

/-- Tokens in which every parenthesis has its match. -/
inductive IsBalanced : List Token → Prop
  | nil : IsBalanced []
  | plain {t : Token} {ts : List Token} (notOpen : t.isChar '(' = false)
      (notClose : t.isChar ')' = false) (behind : IsBalanced ts) : IsBalanced (t :: ts)
  | group {opening close : Token} {inner ts : List Token} (opens : opening.isChar '(' = true)
      (inside : IsBalanced inner) (closes : close.isChar ')' = true) (behind : IsBalanced ts) :
      IsBalanced (opening :: (inner ++ close :: ts))

/-- A parenthesis that opens is none that closes. -/
theorem isChar_close_of_open {t : Token} (h : t.isChar '(' = true) : t.isChar ')' = false := by
  rw [Token.isChar, beq_iff_eq] at h
  rw [Token.isChar, h]
  decide

theorem depthBehind_open {t : Token} (h : t.isChar '(' = true) (depth : Nat) (ts : List Token) :
    depthBehind depth (t :: ts) = depthBehind (depth + 1) ts := by
  simp only [depthBehind, isChar_close_of_open h, h, Bool.false_eq_true, if_false, if_true]

theorem depthBehind_close {t : Token} (h : t.isChar ')' = true) (depth : Nat) (ts : List Token) :
    depthBehind (depth + 1) (t :: ts) = depthBehind depth ts := by
  simp only [depthBehind, h, if_true]

theorem depthBehind_plain {t : Token} (ho : t.isChar '(' = false) (hc : t.isChar ')' = false)
    (depth : Nat) (ts : List Token) : depthBehind depth (t :: ts) = depthBehind depth ts := by
  simp only [depthBehind, ho, hc, Bool.false_eq_true, if_false]

theorem depthBehind_append : ∀ (ts us : List Token) (depth : Nat),
    depthBehind depth (ts ++ us) = (depthBehind depth ts).bind fun depth => depthBehind depth us
  | [], _, _ => rfl
  | t :: ts, us, depth => by
    rw [List.cons_append, depthBehind.eq_def, depthBehind.eq_def depth (t :: ts)]
    simp only
    split
    · cases depth with
      | zero => rfl
      | succ depth => exact depthBehind_append ts us depth
    · exact depthBehind_append ts us _

/-- Balanced tokens leave as many parentheses open as there were. -/
theorem IsBalanced.depthBehind_eq {ts : List Token} (h : IsBalanced ts) :
    ∀ depth, depthBehind depth ts = some depth := by
  induction h with
  | nil => exact fun _ => rfl
  | plain notOpen notClose _ ih =>
    intro depth
    rw [depthBehind_plain notOpen notClose, ih]
  | group opens _ closes _ ihInner ih =>
    intro depth
    rw [depthBehind_open opens, depthBehind_append, ihInner, Option.bind_some,
      depthBehind_close closes, ih]

/-- Tokens behind which no parenthesis is open are balanced, if none was open before; else the
innermost open one is closed behind balanced tokens. -/
theorem isBalanced_of_depthBehind (ts : List Token) :
    (depthBehind 0 ts = some 0 → IsBalanced ts) ∧
      ∀ depth, depthBehind (depth + 1) ts = some 0 → ∃ inner close rest,
        ts = inner ++ close :: rest ∧ IsBalanced inner ∧ close.isChar ')' = true ∧
          depthBehind depth rest = some 0 := by
  -- behind a close the tokens are fewer, but not the tail, so the induction is on their number
  induction hn : ts.length using Nat.strong_induction_on generalizing ts with
  | _ n ih =>
    subst hn
    cases ts with
    | nil =>
      refine ⟨fun _ => .nil, fun depth h => ?_⟩
      cases h
    | cons t ts =>
      have htail := ih ts.length (Nat.lt_succ_self _) ts rfl
      by_cases hclose : t.isChar ')' = true
      · refine ⟨fun h => ?_, fun depth h => ?_⟩
        · rw [depthBehind, if_pos hclose] at h
          cases h
        · rw [depthBehind_close hclose] at h
          exact ⟨[], t, ts, rfl, .nil, hclose, h⟩
      · have hclose : t.isChar ')' = false := by simpa using hclose
        by_cases hopen : t.isChar '(' = true
        · refine ⟨fun h => ?_, fun depth h => ?_⟩
          · rw [depthBehind_open hopen] at h
            obtain ⟨inner, close, rest, rfl, hinner, hc, hrest⟩ := htail.2 0 h
            have hbehind := ih rest.length (by simp; omega) rest rfl
            exact .group hopen hinner hc (hbehind.1 hrest)
          · rw [depthBehind_open hopen] at h
            obtain ⟨inner, close, rest, rfl, hinner, hc, hrest⟩ := htail.2 (depth + 1) h
            have hbehind := ih rest.length (by simp; omega) rest rfl
            obtain ⟨more, close', rest', rfl, hmore, hc', hrest'⟩ := hbehind.2 depth hrest
            exact ⟨t :: (inner ++ close :: more), close', rest', by simp,
              .group hopen hinner hc hmore, hc', hrest'⟩
        · have hopen : t.isChar '(' = false := by simpa using hopen
          refine ⟨fun h => ?_, fun depth h => ?_⟩
          · rw [depthBehind_plain hopen hclose] at h
            exact .plain hopen hclose (htail.1 h)
          · rw [depthBehind_plain hopen hclose] at h
            obtain ⟨inner, close, rest, rfl, hinner, hc, hrest⟩ := htail.2 depth h
            exact ⟨t :: inner, close, rest, rfl, .plain hopen hclose hinner, hc, hrest⟩

/-- Balanced is what counting says. -/
theorem isBalanced_iff {ts : List Token} : IsBalanced ts ↔ depthBehind 0 ts = some 0 :=
  ⟨fun h => h.depthBehind_eq 0, (isBalanced_of_depthBehind ts).1⟩

/-- Balanced tokens and a close are read up to the close. -/
theorem IsBalanced.untilClose_eq {inner : List Token} (h : IsBalanced inner) {close : Token}
    (hc : close.isChar ')' = true) (rest : List Token) :
    untilClose 0 (inner ++ close :: rest) = some (inner, rest) := by
  rw [untilClose_of_depthBehind (close :: rest) inner 0 (h.depthBehind_eq 0)]
  simp [untilClose, hc]

theorem untilClose_eq_some_iff {ts inner rest : List Token} :
    untilClose 0 ts = some (inner, rest) ↔
      ∃ close, close.isChar ')' = true ∧ ts = inner ++ close :: rest ∧ IsBalanced inner := by
  constructor
  · intro h
    obtain ⟨close, hc, hts, hdepth⟩ := exists_close_of_untilClose h
    exact ⟨close, hc, hts, isBalanced_iff.mpr hdepth⟩
  · rintro ⟨close, hc, rfl, hinner⟩
    exact hinner.untilClose_eq hc rest

theorem untilClose_eq_none_iff {ts : List Token} :
    untilClose 0 ts = none ↔ ∀ inner close rest, ts = inner ++ close :: rest →
      close.isChar ')' = true → ¬ IsBalanced inner := by
  rw [Option.eq_none_iff_forall_ne_some]
  constructor
  · intro h inner close rest hts hc hinner
    exact h (inner, rest) (untilClose_eq_some_iff.mpr ⟨close, hc, hts, hinner⟩)
  · rintro h ⟨inner, rest⟩ hsome
    obtain ⟨close, hc, hts, hinner⟩ := untilClose_eq_some_iff.mp hsome
    exact h inner close rest hts hc hinner

end Sql
end DocumentSql
