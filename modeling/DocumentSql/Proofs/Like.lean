/-
# What LIKE patterns cover

A pattern covers a text if the text can be cut into pieces, one for each
character of the pattern: any piece for `%`, one character for `_`, and the
character itself for every other (`IsSplit`). The list of `coverage` has at its
head whether the whole text is covered and behind it the list for the text
without its first character (`coverage_cons`), so that `covers` obeys the
equations of a search that tries every length for each `%`, and agrees with the
pieces (`covers_iff`).

The regular expression of a pattern, read back from its text, has one factor for
each character of the pattern (`ofChars?_expressionChars`), and a factor leads
from a rest of the text to another exactly over a piece that its character
covers (`leads_factorOf`). So it is found in the same texts.

Key definitions: `Like.Covers`, `Like.IsSplit`, `Like.factorOf`.
Key theorems: `Like.covers_iff`, `Like.matchesAnyCase_iff`,
`Like.ofChars?_expressionChars`, `Like.isFoundIn_iff`,
`Like.matchesExactly_iff`.
-/
import DocumentSql.Like
import DocumentSql.Like.Expression
import Mathlib.Data.List.Forall2

namespace DocumentSql
namespace Like

/-! ### Pieces of a text -/

/-- A character of a pattern covers a piece of the text; a literal `p` covers each `c` with
`same p c`. -/
inductive Covers (same : Char → Char → Bool) : Char → List Char → Prop
  | run (piece : List Char) : Covers same '%' piece
  | one (c : Char) : Covers same '_' [c]
  | itself {p c : Char} (hrun : p ≠ '%') (hone : p ≠ '_') (h : same p c = true) : Covers same p [c]

/-- The text is made of pieces in a row, one for each character of the pattern. -/
def IsSplit (same : Char → Char → Bool) (pattern text : List Char) : Prop :=
  ∃ pieces, List.Forall₂ (Covers same) pattern pieces ∧ pieces.flatten = text

variable {same : Char → Char → Bool}

theorem covers_of_ne_run {p : Char} (hp : p ≠ '%') {piece : List Char} :
    Covers same p piece ↔ ∃ c, piece = [c] ∧ (p == '_' || same p c) = true := by
  constructor
  · rintro (_ | c | ⟨-, -, h⟩)
    · exact absurd rfl hp
    · exact ⟨c, rfl, rfl⟩
    · exact ⟨_, rfl, by rw [h, Bool.or_true]⟩
  · rintro ⟨c, rfl, h⟩
    by_cases hone : p = '_'
    · subst hone
      exact .one c
    · exact .itself hp hone (by simpa [hone] using h)

theorem isSplit_nil {text : List Char} : IsSplit same [] text ↔ text = [] := by
  constructor
  · rintro ⟨pieces, h, rfl⟩
    rw [List.forall₂_nil_left_iff.mp h, List.flatten_nil]
  · rintro rfl
    exact ⟨[], .nil, rfl⟩

theorem isSplit_cons {p : Char} {pattern text : List Char} :
    IsSplit same (p :: pattern) text ↔
      ∃ piece rest, text = piece ++ rest ∧ Covers same p piece ∧ IsSplit same pattern rest := by
  constructor
  · rintro ⟨pieces, h, rfl⟩
    obtain ⟨piece, pieces, hp, hpieces, rfl⟩ := List.forall₂_cons_left_iff.mp h
    exact ⟨piece, pieces.flatten, List.flatten_cons, hp, pieces, hpieces, rfl⟩
  · rintro ⟨piece, _, rfl, hp, pieces, hpieces, rfl⟩
    exact ⟨piece :: pieces, .cons hp hpieces, List.flatten_cons⟩

/-- What `%` covers is empty, or one character longer than something that it covers. -/
theorem isSplit_run {pattern text : List Char} :
    IsSplit same ('%' :: pattern) text ↔
      IsSplit same pattern text ∨
        ∃ c rest, text = c :: rest ∧ IsSplit same ('%' :: pattern) rest := by
  rw [isSplit_cons]
  constructor
  · rintro ⟨piece, rest, rfl, -, h⟩
    cases piece with
    | nil => exact .inl h
    | cons c piece =>
      exact .inr ⟨c, piece ++ rest, rfl, isSplit_cons.mpr ⟨piece, rest, rfl, .run piece, h⟩⟩
  · rintro (h | ⟨c, _, rfl, h⟩)
    · exact ⟨[], text, rfl, .run [], h⟩
    · obtain ⟨piece, rest, rfl, -, h⟩ := isSplit_cons.mp h
      exact ⟨c :: piece, rest, rfl, .run _, h⟩

theorem isSplit_of_ne_run {p : Char} (hp : p ≠ '%') {pattern text : List Char} :
    IsSplit same (p :: pattern) text ↔
      ∃ c rest, text = c :: rest ∧ (p == '_' || same p c) = true ∧ IsSplit same pattern rest := by
  rw [isSplit_cons]
  constructor
  · rintro ⟨piece, rest, rfl, hpiece, h⟩
    obtain ⟨c, rfl, hc⟩ := (covers_of_ne_run hp).mp hpiece
    exact ⟨c, rest, rfl, hc, h⟩
  · rintro ⟨c, rest, rfl, hc, h⟩
    exact ⟨[c], rest, rfl, (covers_of_ne_run hp).mpr ⟨c, rfl, hc⟩, h⟩

/-! ### The list of the ends that are covered -/

theorem trueFrom_cons (b : Bool) {bs : List Bool} (h : bs ≠ []) :
    trueFrom (b :: bs) = (b || (trueFrom bs).head?.getD false) :: trueFrom bs := by
  cases bs with
  | nil => exact absurd rfl h
  | cons c cs =>
    rw [trueFrom]
    cases hcs : trueFrom (c :: cs) with
    | nil =>
      rw [trueFrom] at hcs
      split at hcs <;> cases hcs
    | cons r rs => rfl

theorem coverage_ne_nil (same : Char → Char → Bool) (text : List Char) :
    ∀ pattern, coverage same text pattern ≠ []
  | [] => by simp [coverage]
  | p :: pattern => by
    have ih := coverage_ne_nil same text pattern
    unfold coverage
    split
    · intro h
      cases hl : coverage same text pattern with
      | nil => exact ih hl
      | cons b bs =>
        simp only [hl, trueFrom] at h
        split at h <;> cases h
    · simp [literalStep]

/-- Behind its head the list is the one for the text without its first character. -/
theorem coverage_cons (same : Char → Char → Bool) (c : Char) (text : List Char) :
    ∀ pattern, coverage same (c :: text) pattern =
      covers same pattern (c :: text) :: coverage same text pattern := by
  intro pattern
  have htail : (coverage same (c :: text) pattern).tail = coverage same text pattern := by
    induction pattern with
    | nil => rfl
    | cons p pattern ih =>
      cases hl : coverage same (c :: text) pattern with
      | nil => exact absurd hl (coverage_ne_nil same _ pattern)
      | cons b bs =>
        rw [hl, List.tail_cons] at ih
        have hbs : bs ≠ [] := ih ▸ coverage_ne_nil same text pattern
        simp only [coverage, hl, ← ih]
        split
        · rw [trueFrom_cons b hbs, List.tail_cons]
        · cases bs with
          | nil => exact absurd rfl hbs
          | cons b' bs => simp [literalStep]
  cases hl : coverage same (c :: text) pattern with
  | nil => exact absurd hl (coverage_ne_nil same _ pattern)
  | cons b bs =>
    rw [covers, hl, ← htail, hl]
    rfl

theorem coverage_nil_text (same : Char → Char → Bool) (pattern : List Char) :
    coverage same [] pattern = [covers same pattern []] := by
  have hlength : ∀ pattern, (coverage same [] pattern).length = 1 := by
    intro pattern
    induction pattern with
    | nil => rfl
    | cons p pattern ih =>
      obtain ⟨b, hb⟩ := List.length_eq_one_iff.mp ih
      simp only [coverage, hb]
      split <;> rfl
  obtain ⟨b, hb⟩ := List.length_eq_one_iff.mp (hlength pattern)
  rw [covers, hb]
  rfl

/-! The equations of the search. -/

theorem covers_nil_left (same : Char → Char → Bool) (text : List Char) :
    covers same [] text = text.isEmpty := by
  cases text <;> rfl

theorem covers_run_nil (same : Char → Char → Bool) (pattern : List Char) :
    covers same ('%' :: pattern) [] = covers same pattern [] := by
  rw [covers, coverage, if_pos rfl, coverage_nil_text]
  rfl

theorem covers_run_cons (same : Char → Char → Bool) (pattern : List Char) (c : Char)
    (text : List Char) :
    covers same ('%' :: pattern) (c :: text) =
      (covers same pattern (c :: text) || covers same ('%' :: pattern) text) := by
  have hlater : coverage same text ('%' :: pattern) = trueFrom (coverage same text pattern) := by
    rw [coverage, if_pos rfl]
  unfold covers
  rw [hlater, coverage, if_pos rfl, coverage_cons,
    trueFrom_cons _ (coverage_ne_nil same text pattern)]
  rfl

theorem covers_one_nil (same : Char → Char → Bool) {p : Char} (hp : p ≠ '%')
    (pattern : List Char) : covers same (p :: pattern) [] = false := by
  simp [covers, coverage, hp, literalStep]

theorem covers_one_cons (same : Char → Char → Bool) {p : Char} (hp : p ≠ '%')
    (pattern : List Char) (c : Char) (text : List Char) :
    covers same (p :: pattern) (c :: text) =
      ((p == '_' || same p c) && covers same pattern text) := by
  unfold covers
  rw [coverage, if_neg hp, coverage_cons]
  cases hl : coverage same text pattern with
  | nil => exact absurd hl (coverage_ne_nil same text pattern)
  | cons b bs => simp [literalStep]

/-- A pattern covers the texts that are made of pieces its characters cover. -/
theorem covers_iff : ∀ {pattern text : List Char},
    covers same pattern text = true ↔ IsSplit same pattern text
  | [], text => by rw [covers_nil_left, isSplit_nil, List.isEmpty_iff]
  | p :: pattern, text => by
    by_cases hp : p = '%'
    · subst hp
      -- the search for the run goes along the text
      induction text with
      | nil =>
        rw [covers_run_nil, covers_iff]
        exact (isSplit_run.trans (by simp)).symm
      | cons c text ih =>
        rw [covers_run_cons, Bool.or_eq_true, covers_iff, ih]
        exact (isSplit_run.trans (by simp)).symm
    · rw [isSplit_of_ne_run hp]
      cases text with
      | nil => simp [covers_one_nil same hp]
      | cons c text => simp [covers_one_cons same hp, covers_iff]

/-- LIKE without case covers the texts that are made of such pieces up to the case of letters. -/
theorem matchesAnyCase_iff (pattern text : String) :
    matchesAnyCase pattern text = true ↔
      IsSplit (fun p c => p.toLower == c.toLower) pattern.toList text.toList :=
  covers_iff

/-! ### Reading the expression back -/

open Expression

/-- The symbols that stand for a character of the pattern. -/
def symbolsOf (p : Char) : List Symbol :=
  if p = '%' then [.atom (.any true), .star]
  else if p = '_' then [.atom (.any true)]
  else [.atom (.literal p)]

/-- The factor that stands for a character of the pattern. -/
def factorOf (p : Char) : Factor :=
  if p = '%' then .star (.any true)
  else if p = '_' then .once (.any true)
  else .once (.literal p)

theorem isMeta_backslash : isMeta '\\' = true := by decide

theorem symbols?_cons {lineFeed : Bool} {c : Char} {s : Symbol} (hc : c ≠ '\\')
    (hs : symbol? lineFeed c = some s) (cs : List Char) :
    symbols? lineFeed false (c :: cs) = (symbols? lineFeed false cs).map (s :: ·) := by
  rw [symbols?, if_neg Bool.false_ne_true, if_neg hc, hs]
  rfl

/-- A character that has no meaning of its own stands for itself. -/
theorem symbol?_of_isMeta_eq_false {lineFeed : Bool} {c : Char} (h : isMeta c = false) :
    symbol? lineFeed c = some (.atom (.literal c)) := by
  have hne : ∀ m ∈ metaCharacters, c ≠ m := by
    rintro m hm rfl
    rw [isMeta, List.contains_iff_mem.mpr hm] at h
    cases h
  have h1 := hne '*' (by decide)
  have h2 := hne '.' (by decide)
  have h3 := hne '^' (by decide)
  have h4 := hne '$' (by decide)
  simp only [symbol?, h1, h2, h3, h4, h, if_false, Bool.false_eq_true]

/-- An escaped text is read as the literals it was made of. -/
theorem symbols?_escape (lineFeed : Bool) (cs : List Char) : ∀ literal : List Char,
    symbols? lineFeed false (escape literal ++ cs) =
      (symbols? lineFeed false cs).map (literal.map (.atom ∘ .literal) ++ ·)
  | [] => by simp [escape]
  | c :: literal => by
    have ih := symbols?_escape lineFeed cs literal
    have hhead : symbols? lineFeed false (escape (c :: literal) ++ cs) =
        (symbols? lineFeed false (escape literal ++ cs)).map (.atom (.literal c) :: ·) := by
      rw [escape, List.flatMap_cons, List.append_assoc]
      cases hc : isMeta c with
      | true =>
        show symbols? lineFeed false ('\\' :: c :: (escape literal ++ cs)) = _
        rw [symbols?, if_neg Bool.false_ne_true, if_pos rfl, symbols?, if_pos rfl, if_pos hc]
      | false =>
        have hne : c ≠ '\\' := by
          rintro rfl
          rw [isMeta_backslash] at hc
          cases hc
        exact symbols?_cons hne (symbol?_of_isMeta_eq_false hc) _
    rw [hhead, ih, Option.map_map]
    rfl

/-- The text behind a place of the pattern is the literal that is open and then what each character
of the pattern stands for. -/
theorem symbols?_expressionBehind (cs : List Char) : ∀ pattern literal : List Char,
    symbols? true false (expressionBehind literal pattern ++ cs) =
      (symbols? true false cs).map
        (literal.map (.atom ∘ .literal) ++ pattern.flatMap symbolsOf ++ ·)
  | [], literal => by simp [expressionBehind, symbols?_escape]
  | p :: pattern, literal => by
    have ih := symbols?_expressionBehind cs pattern
    by_cases hrun : p = '%'
    · have hdot := symbols?_cons (c := '.') (by decide) (rfl : symbol? true '.' = _)
      have hstar := symbols?_cons (c := '*') (by decide) (rfl : symbol? true '*' = _)
      rw [expressionBehind, if_pos hrun, List.append_assoc, symbols?_escape, List.cons_append,
        List.cons_append, hdot, hstar, ih]
      simp [symbolsOf, hrun, Function.comp_def]
    by_cases hone : p = '_'
    · have hdot := symbols?_cons (c := '.') (by decide) (rfl : symbol? true '.' = _)
      rw [expressionBehind, if_neg hrun, if_pos hone, List.append_assoc, symbols?_escape,
        List.cons_append, hdot, ih]
      simp [symbolsOf, hone, Function.comp_def]
    · rw [expressionBehind, if_neg hrun, if_neg hone, ih]
      simp [symbolsOf, hrun, hone]

/-- The rest of the symbols does not go on with a star for what stands before it. -/
def IsUnstarred (rest : List Symbol) : Prop := rest.head? ≠ some .star

theorem factors?_atom {rest : List Symbol} (h : IsUnstarred rest) (a : Atom) :
    factors? (.atom a :: rest) = (factors? rest).map (.once a :: ·) := by
  cases rest with
  | nil => rfl
  | cons s rest =>
    cases s with
    | atom b => rfl
    | star => exact absurd rfl h

theorem factors?_symbolsOf (p : Char) {rest : List Symbol} (h : IsUnstarred rest) :
    factors? (symbolsOf p ++ rest) = (factors? rest).map (factorOf p :: ·) := by
  unfold symbolsOf factorOf
  by_cases hrun : p = '%'
  · rw [if_pos hrun, if_pos hrun]
    rfl
  by_cases hone : p = '_'
  · rw [if_neg hrun, if_neg hrun, if_pos hone, if_pos hone]
    exact factors?_atom h _
  · rw [if_neg hrun, if_neg hrun, if_neg hone, if_neg hone]
    exact factors?_atom h _

theorem isUnstarred_symbolsOf (p : Char) (rest : List Symbol) :
    IsUnstarred (symbolsOf p ++ rest) := by
  unfold IsUnstarred symbolsOf
  split
  · simp
  · split <;> simp

theorem isUnstarred_flatMap {rest : List Symbol} (h : IsUnstarred rest) (pattern : List Char) :
    IsUnstarred (pattern.flatMap symbolsOf ++ rest) := by
  cases pattern with
  | nil => exact h
  | cons p pattern =>
    rw [List.flatMap_cons, List.append_assoc]
    exact isUnstarred_symbolsOf p _

theorem factors?_flatMap_symbolsOf {rest : List Symbol} (h : IsUnstarred rest) :
    ∀ pattern : List Char, factors? (pattern.flatMap symbolsOf ++ rest) =
      (factors? rest).map (pattern.map factorOf ++ ·)
  | [] => by simp
  | p :: pattern => by
    rw [List.flatMap_cons, List.append_assoc, factors?_symbolsOf p (isUnstarred_flatMap h pattern),
      factors?_flatMap_symbolsOf h pattern, Option.map_map]
    rfl

/-- The expression for a pattern has a factor for each of its characters, between the two ends. -/
theorem ofChars?_expressionChars (pattern : List Char) :
    ofChars? (expressionChars pattern) =
      some (.once .start :: (pattern.map factorOf ++ [.once .finish])) := by
  have hfinish : symbols? true false ['$'] = some [.atom .finish] := rfl
  have hend : IsUnstarred [.atom .finish] := by simp [IsUnstarred]
  show (symbols? true false ('^' :: (expressionBehind [] pattern ++ ['$']))).bind factors? = _
  rw [symbols?_cons (by decide) rfl, symbols?_expressionBehind, hfinish]
  show factors? (.atom .start :: (pattern.flatMap symbolsOf ++ [.atom .finish])) = _
  rw [factors?_atom (isUnstarred_flatMap hend pattern), factors?_flatMap_symbolsOf hend]
  rfl

/-! ### What the expression matches -/

/-- With a dot that stands for any character, a run leads to every rest of a rest. -/
theorem reflTransGen_any (text : List Char) {rest behind : List Char} :
    Relation.ReflTransGen ((Atom.any true).Leads text) rest behind ↔ behind <:+ rest := by
  constructor
  · intro h
    induction h with
    | refl => exact List.suffix_refl rest
    | tail _ hstep ih =>
      cases hstep with
      | any _ => exact (List.suffix_cons _ _).trans ih
  · rintro ⟨piece, rfl⟩
    induction piece with
    | nil => exact .refl
    | cons c piece ih => exact .head (.any (.inl rfl)) ih

/-- The factor for a character leads over the pieces that the character covers. -/
theorem leads_factorOf (text : List Char) (p : Char) {rest behind : List Char} :
    (factorOf p).Leads text rest behind ↔
      ∃ piece, rest = piece ++ behind ∧ Covers (· == ·) p piece := by
  unfold factorOf
  by_cases hrun : p = '%'
  · subst hrun
    rw [if_pos rfl, Factor.Leads, reflTransGen_any]
    constructor
    · rintro ⟨piece, rfl⟩
      exact ⟨piece, rfl, .run piece⟩
    · rintro ⟨piece, rfl, -⟩
      exact List.suffix_append piece behind
  rw [if_neg hrun]
  by_cases hone : p = '_'
  · subst hone
    rw [if_pos rfl, Factor.Leads]
    constructor
    · rintro ⟨-⟩
      exact ⟨[_], rfl, .one _⟩
    · rintro ⟨_, rfl, hc⟩
      obtain ⟨c, rfl, -⟩ := (covers_of_ne_run hrun).mp hc
      exact .any (.inl rfl)
  · rw [if_neg hone, Factor.Leads]
    constructor
    · rintro ⟨-⟩
      exact ⟨[p], rfl, .itself hrun hone (beq_self_eq_true p)⟩
    · rintro ⟨_, rfl, hc⟩
      cases hc with
      | run => exact absurd rfl hrun
      | one => exact absurd rfl hone
      | itself _ _ h =>
        rw [← eq_of_beq h]
        exact .literal

theorem leads_map_factorOf (text : List Char) : ∀ {pattern rest behind : List Char},
    Leads text (pattern.map factorOf ++ [.once .finish]) rest behind ↔
      behind = [] ∧ IsSplit (· == ·) pattern rest
  | [], rest, behind => by
    rw [isSplit_nil]
    constructor
    · rintro ⟨between, ⟨⟩, rfl⟩
      exact ⟨rfl, rfl⟩
    · rintro ⟨rfl, rfl⟩
      exact ⟨[], .finish, rfl⟩
  | p :: pattern, rest, behind => by
    rw [isSplit_cons]
    constructor
    · rintro ⟨between, hp, hpattern⟩
      obtain ⟨piece, rfl, hpiece⟩ := (leads_factorOf text p).mp hp
      obtain ⟨hbehind, hsplit⟩ := (leads_map_factorOf text).mp hpattern
      exact ⟨hbehind, piece, between, rfl, hpiece, hsplit⟩
    · rintro ⟨hbehind, piece, between, rfl, hpiece, hsplit⟩
      exact ⟨between, (leads_factorOf text p).mpr ⟨piece, rfl, hpiece⟩,
        (leads_map_factorOf text).mpr ⟨hbehind, hsplit⟩⟩

/-- The expression for a pattern is found in the texts that the pattern covers. -/
theorem isFoundIn_iff (pattern text : List Char) :
    IsFoundIn (.once .start :: (pattern.map factorOf ++ [.once .finish])) text ↔
      IsSplit (· == ·) pattern text := by
  constructor
  · rintro ⟨rest, behind, -, between, ⟨⟩, h⟩
    exact ((leads_map_factorOf text).mp h).2
  · intro h
    exact ⟨text, [], List.suffix_refl text, text, .start, (leads_map_factorOf text).mpr ⟨rfl, h⟩⟩

/-- LIKE holds exactly of the texts that are made of one piece for each character of the pattern:
any run for `%`, any one character for `_`, and for every other character itself. These are the
texts in which the regular expression written for the pattern is found. -/
theorem matchesExactly_iff (pattern text : String) :
    (matchesExactly pattern text = true ↔ IsSplit (· == ·) pattern.toList text.toList) ∧
    (matchesExactly pattern text = true ↔
      ∃ factors, ofChars? (expressionChars pattern.toList) = some factors ∧
        IsFoundIn factors text.toList) := by
  have hsplit : matchesExactly pattern text = true ↔
      IsSplit (· == ·) pattern.toList text.toList := covers_iff
  refine ⟨hsplit, hsplit.trans ?_⟩
  rw [ofChars?_expressionChars]
  constructor
  · intro h
    exact ⟨_, rfl, (isFoundIn_iff _ _).mpr h⟩
  · rintro ⟨factors, hfactors, h⟩
    cases hfactors
    exact (isFoundIn_iff _ _).mp h

example : matchesExactly "a.b%" "a.b\nc" = true := by decide

end Like
end DocumentSql
