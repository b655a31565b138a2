/-
# The text of a parenthesis

Behind an open parenthesis a cursor goes over the tokens, counts the parentheses
that were opened and not closed again, and puts the texts together. It stops
behind the close that leaves none open, or else where the tokens end
(`Sql.collect`). `Sql.untilClose` stops there too, and keeps the tokens that the
text is made of (`Sql.collect_eq`).

Counting says the same as matching, so that close is the only one with balanced
tokens in front of it (`Sql.isCutAtClose_iff`), and the cursor comes to the end
of the tokens just if there is no such close.

Key definitions: `Sql.collect`, `Sql.IsCutAtClose`, `Sql.CollectsExactly`.
Key theorems: `Sql.collect_eq`, `Sql.isCutAtClose_iff`, `Sql.collectsExactly`.
-/
import DocumentSql.Proofs.Sql.Parentheses

namespace DocumentSql
namespace Sql

/-- The text in front of the close, if a cursor comes to it, and the tokens behind the place where
it stops. It starts with `depth` parentheses that are open inside, and the text of the tokens that
it has passed. -/
def collect (depth : Nat) (collected : String) : List Token → Option String × List Token
  | [] => (none, [])
  | t :: ts =>
    if t.isChar ')' then
      match depth with
      | 0 => (some collected, ts)
      | depth + 1 => collect depth (collected ++ t.text) ts
    else collect (if t.isChar '(' then depth + 1 else depth) (collected ++ t.text) ts

theorem joinTexts_cons (t : Token) (ts : List Token) :
    joinTexts (t :: ts) = t.text ++ joinTexts ts := by
  rw [joinTexts, List.map_cons, String.join_cons]
  rfl

/-- The text is that of the tokens up to the close. -/
theorem collect_eq (depth : Nat) (collected : String) (ts : List Token) :
    collect depth collected ts =
      match untilClose depth ts with
      | some (inner, rest) => (some (collected ++ joinTexts inner), rest)
      | none => (none, []) := by
  -- what was collected so far stands in front, whatever the depth
  induction ts generalizing depth collected with
  | nil => rfl
  | cons t ts ih =>
    have hnext : ∀ next, collect next (collected ++ t.text) ts =
        match (untilClose next ts).map fun reading => (t :: reading.1, reading.2) with
        | some (inner, rest) => (some (collected ++ joinTexts inner), rest)
        | none => (none, []) := by
      intro next
      rw [ih]
      cases untilClose next ts with
      | none => rfl
      | some reading => simp [joinTexts_cons, String.append_assoc]
    rw [collect.eq_def, untilClose.eq_def]
    simp only
    split
    · cases depth with
      | zero => simp [joinTexts]
      | succ depth => exact hnext depth
    · exact hnext _

/-- Tokens that are cut at the close of a parenthesis that is open in front of them: balanced
tokens, the close, and the rest. -/
structure IsCutAtClose (ts inner rest : List Token) : Prop where
  tokens_eq : ts = inner ++ ⟨")"⟩ :: rest
  balanced : IsBalanced inner

theorem isChar_close_iff {t : Token} : t.isChar ')' = true ↔ t = ⟨")"⟩ := by
  rw [Token.isChar, beq_iff_eq, ← String.toList_singleton, String.toList_inj]
  exact ⟨fun h => congrArg Token.mk h, congrArg Token.text⟩

theorem isCutAtClose_iff {ts inner rest : List Token} :
    IsCutAtClose ts inner rest ↔ untilClose 0 ts = some (inner, rest) := by
  rw [untilClose_eq_some_iff]
  constructor
  · rintro ⟨htokens, hbalanced⟩
    exact ⟨⟨")"⟩, isChar_close_iff.mpr rfl, htokens, hbalanced⟩
  · rintro ⟨close, hclose, htokens, hbalanced⟩
    rw [isChar_close_iff.mp hclose] at htokens
    exact ⟨htokens, hbalanced⟩

/-- Only one close has balanced tokens in front of it. -/
theorem IsCutAtClose.unique {ts inner rest inner' rest' : List Token}
    (h : IsCutAtClose ts inner rest) (h' : IsCutAtClose ts inner' rest') :
    inner' = inner ∧ rest' = rest := by
  have hboth := (isCutAtClose_iff.mp h').symm.trans (isCutAtClose_iff.mp h)
  exact Prod.mk.inj (Option.some.inj hboth)

theorem IsCutAtClose.collect_eq {ts inner rest : List Token} (h : IsCutAtClose ts inner rest) :
    collect 0 "" ts = (some (joinTexts inner), rest) := by
  rw [Sql.collect_eq, isCutAtClose_iff.mp h]
  exact congrArg (fun text => (some text, rest)) String.empty_append

theorem collect_of_forall_not {ts : List Token} (h : ∀ inner rest, ¬IsCutAtClose ts inner rest) :
    collect 0 "" ts = (none, []) := by
  have huntil : untilClose 0 ts = none := by
    rw [Option.eq_none_iff_forall_ne_some]
    rintro ⟨inner, rest⟩ hsome
    exact h inner rest (isCutAtClose_iff.mpr hsome)
  rw [collect_eq, huntil]

/-- What a cursor does with the tokens behind an open parenthesis. -/
structure CollectsExactly (ts : List Token) : Prop where
  /-- It gives a text just if the tokens can be cut at the close. -/
  isSome_iff : (collect 0 "" ts).1.isSome = true ↔ ∃ inner rest, IsCutAtClose ts inner rest
  /-- They can be cut in one way only. -/
  unique : ∀ inner rest inner' rest', IsCutAtClose ts inner rest → IsCutAtClose ts inner' rest' →
    inner' = inner ∧ rest' = rest
  /-- The text is that of the tokens in front of the close, and the cursor is left behind it. -/
  collected : ∀ inner rest, IsCutAtClose ts inner rest →
    collect 0 "" ts = (some (joinTexts inner), rest)
  /-- If they cannot be cut, there is no text, and the cursor is left at the end of the tokens. -/
  exhausted : (∀ inner rest, ¬IsCutAtClose ts inner rest) → collect 0 "" ts = (none, [])
  /-- Statements are read on from that cut. -/
  untilClose_iff : ∀ inner rest, untilClose 0 ts = some (inner, rest) ↔ IsCutAtClose ts inner rest

theorem collectsExactly (ts : List Token) : CollectsExactly ts where
  isSome_iff := by
    constructor
    · intro hsome
      by_contra h
      rw [collect_of_forall_not fun inner rest hcut => h ⟨inner, rest, hcut⟩] at hsome
      cases hsome
    · rintro ⟨inner, rest, hcut⟩
      rw [hcut.collect_eq]
      rfl
  unique _ _ _ _ h h' := h.unique h'
  collected _ _ h := h.collect_eq
  exhausted h := collect_of_forall_not h
  untilClose_iff _ _ := isCutAtClose_iff.symm

example : collect 0 "" [⟨"("⟩, ⟨"a"⟩, ⟨")"⟩, ⟨"b"⟩, ⟨")"⟩, ⟨"FROM"⟩] =
    (some "(a)b", [⟨"FROM"⟩]) := by
  decide

end Sql
end DocumentSql
