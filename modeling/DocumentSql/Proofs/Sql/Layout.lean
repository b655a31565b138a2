/-
# A text that lays out tokens is cut into them

Tokens may be written with any blanks between them, or none where one of two
neighbours is no word. Such a text is cut into the same tokens again
(`tokenize_of_laysOut`), whatever is done to its blanks on the way: escapes
become blanks, runs of blanks become one space. A literal has to keep its
content in that, so it must hold neither an escape nor a run of blanks.

Behind a character that is no blank, the rest of a text is normalized as
`squeezeBehind` says; that turns normal forms into equations on the first
character (`squeezeBlanks_cons`).

Key definitions: `Sql.IsWord`, `Sql.IsLiteral`, `Sql.IsMark`, `Sql.IsGap`, `Sql.LaysOut`.
Key theorems: `Sql.squeezeBlanks_cons`, `Sql.scan_word`, `Sql.tokenize_of_laysOut`.
-/
import DocumentSql.Sql.Token
import DocumentSql.Proofs.Lists
import DocumentSql.Proofs.Text.Case
import Mathlib.Data.List.Chain

namespace DocumentSql
namespace Sql

/-! ### Normal form, character by character -/

/-- What characters become in normal form behind one that is no blank. -/
def squeezeBehind (cs : List Char) : List Char :=
  if (Text.words cs).isEmpty then []
  else
    match cs with
    | [] => []
    | c :: _ => if Text.isBlank c then ' ' :: squeezeBlanks cs else squeezeBlanks cs

theorem words_nil : Text.words [] = [] := by rw [Text.words.eq_def]

theorem words_cons_of_isBlank {c : Char} (h : Text.isBlank c = true) (cs : List Char) :
    Text.words (c :: cs) = Text.words cs := by
  rw [Text.words.eq_def]
  exact if_pos h

theorem words_cons {c : Char} (h : Text.isBlank c = false) (cs : List Char) :
    Text.words (c :: cs) =
      (c :: cs.takeWhile (!Text.isBlank ·)) :: Text.words (cs.dropWhile (!Text.isBlank ·)) := by
  rw [Text.words.eq_def]
  exact if_neg (by rw [h]; exact Bool.false_ne_true)

theorem squeezeBlanks_cons {c : Char} (h : Text.isBlank c = false) (cs : List Char) :
    squeezeBlanks (c :: cs) = c :: squeezeBehind cs := by
  unfold squeezeBehind
  cases cs with
  | nil => simp [squeezeBlanks, words_cons h, words_nil]
  | cons d cs =>
    cases hd : Text.isBlank d with
    | false =>
      have hw := words_cons hd cs
      rw [squeezeBlanks, words_cons h, squeezeBlanks, hw]
      cases hr : Text.words (cs.dropWhile (!Text.isBlank ·)) <;> simp [hd, hr]
    | true =>
      rw [squeezeBlanks, words_cons h, squeezeBlanks, words_cons_of_isBlank hd]
      cases hr : Text.words cs <;> simp [hd, words_cons_of_isBlank hd, hr]

/-- Characters that are not blank stay next to each other. -/
theorem squeezeBehind_cons {c : Char} (h : Text.isBlank c = false) (cs : List Char) :
    squeezeBehind (c :: cs) = c :: squeezeBehind cs := by
  rw [← squeezeBlanks_cons h, squeezeBehind, words_cons h]
  simp [h]

theorem words_append_of_isBlank (cs : List Char) : ∀ {blanks : List Char},
    (∀ b ∈ blanks, Text.isBlank b = true) → Text.words (blanks ++ cs) = Text.words cs
  | [], _ => rfl
  | b :: blanks, h => by
    rw [List.forall_mem_cons] at h
    rw [List.cons_append, words_cons_of_isBlank h.1, words_append_of_isBlank cs h.2]

theorem squeezeBlanks_append_of_isBlank (cs : List Char) {blanks : List Char}
    (h : ∀ b ∈ blanks, Text.isBlank b = true) :
    squeezeBlanks (blanks ++ cs) = squeezeBlanks cs := by
  rw [squeezeBlanks, words_append_of_isBlank cs h, squeezeBlanks]

/-- Blanks in front of another character become one space. -/
theorem squeezeBehind_blanks {c : Char} (hc : Text.isBlank c = false) (cs : List Char)
    {blanks : List Char} (h : ∀ b ∈ blanks, Text.isBlank b = true) (hne : blanks ≠ []) :
    squeezeBehind (blanks ++ c :: cs) = ' ' :: c :: squeezeBehind cs := by
  obtain ⟨b, blanks, rfl⟩ := List.exists_cons_of_ne_nil hne
  rw [← squeezeBlanks_cons hc, ← squeezeBlanks_append_of_isBlank (c :: cs) h]
  unfold squeezeBehind
  rw [words_append_of_isBlank _ h, words_cons hc]
  simp [h b List.mem_cons_self]

/-- Blanks at the end go. -/
theorem squeezeBehind_of_forall_isBlank {blanks : List Char}
    (h : ∀ b ∈ blanks, Text.isBlank b = true) : squeezeBehind blanks = [] := by
  have hwords := words_append_of_isBlank [] h
  rw [List.append_nil, words_nil] at hwords
  unfold squeezeBehind
  rw [hwords]
  rfl

/-! ### Escapes -/

/-- No backslash stands before `n`, `t` or `r`. -/
def HasNoEscape (cs : List Char) : Prop := cs.IsChain fun a b => a = '\\' → b ∉ ['n', 't', 'r']

instance (cs : List Char) : Decidable (HasNoEscape cs) :=
  inferInstanceAs (Decidable (cs.IsChain fun a b => a = '\\' → b ∉ ['n', 't', 'r']))

theorem unescapeBlanks_cons {c : Char} {cs : List Char}
    (h : c = '\\' → ∀ d ∈ cs.head?, d ∉ ['n', 't', 'r']) :
    unescapeBlanks (c :: cs) = c :: unescapeBlanks cs := by
  rw [unescapeBlanks.eq_def]
  split <;> simp_all

theorem unescapeBlanks_append (rest : List Char) : ∀ {cs : List Char}, HasNoEscape cs →
    (cs.getLast? = some '\\' → ∀ d ∈ rest.head?, d ∉ ['n', 't', 'r']) →
    unescapeBlanks (cs ++ rest) = cs ++ unescapeBlanks rest
  | [], _, _ => rfl
  | [c], _, h => by
    rw [List.singleton_append, unescapeBlanks_cons fun hc => h (by rw [hc]; rfl)]
    rfl
  | c :: d :: cs, hn, h => by
    rw [HasNoEscape, List.isChain_cons_cons] at hn
    have ih := unescapeBlanks_append rest hn.2 h
    rw [List.cons_append, unescapeBlanks_cons, ih]
    · rfl
    · intro hc e he
      obtain rfl := Option.some.inj he
      exact hn.1 hc

/-- What may stand between tokens: blanks and escapes that become blanks. -/
inductive IsGap : List Char → Prop
  | nil : IsGap []
  | blank {c : Char} {cs : List Char} : Text.isBlank c = true → IsGap cs → IsGap (c :: cs)
  | escape {c : Char} {cs : List Char} : c ∈ ['n', 't', 'r'] → IsGap cs → IsGap ('\\' :: c :: cs)

/-- A gap becomes blanks, at least one if it is not empty. -/
theorem IsGap.exists_blanks {gap : List Char} (h : IsGap gap) :
    ∃ blanks, (∀ b ∈ blanks, Text.isBlank b = true) ∧ (blanks = [] ↔ gap = []) ∧
      ∀ rest, unescapeBlanks (gap ++ rest) = blanks ++ unescapeBlanks rest := by
  induction h with
  | nil => exact ⟨[], List.forall_mem_nil _, Iff.rfl, fun _ => rfl⟩
  | @blank c cs hc _ ih =>
    obtain ⟨blanks, hb, -, hrest⟩ := ih
    refine ⟨c :: blanks, List.forall_mem_cons.mpr ⟨hc, hb⟩, by simp, fun rest => ?_⟩
    rw [List.cons_append, unescapeBlanks_cons, hrest, List.cons_append]
    rintro rfl
    exact absurd hc (by decide)
  | @escape c cs hc _ ih =>
    obtain ⟨blanks, hb, -, hrest⟩ := ih
    refine ⟨' ' :: blanks, List.forall_mem_cons.mpr ⟨by decide, hb⟩, by simp, fun rest => ?_⟩
    rw [List.cons_append, List.cons_append, List.cons_append, ← hrest]
    simp only [List.mem_cons, List.not_mem_nil, or_false] at hc
    rcases hc with rfl | rfl | rfl <;> rfl

/-! ### Lexemes -/

/-- A word: it goes on to the next blank, quote or mark. -/
structure IsWord (cs : List Char) : Prop where
  nonempty : cs ≠ []
  chars : ∀ c ∈ cs, isWordChar c = true
  noEscape : HasNoEscape cs

instance (cs : List Char) : Decidable (IsWord cs) :=
  decidable_of_iff (cs ≠ [] ∧ cs.all isWordChar = true ∧ HasNoEscape cs)
    ⟨fun ⟨hne, hc, he⟩ => ⟨hne, List.all_eq_true.mp hc, he⟩,
      fun h => ⟨h.nonempty, List.all_eq_true.mpr h.chars, h.noEscape⟩⟩

/-- What may stand between two quotes: no such quote, no escape, and no blanks but single spaces. -/
structure IsContent (quote : Char) (cs : List Char) : Prop where
  quote_notMem : quote ∉ cs
  noEscape : HasNoEscape cs
  spaces : ∀ c ∈ cs, Text.isBlank c = true → c = ' '
  noRuns : cs.IsChain fun a b => ¬ (Text.isBlank a = true ∧ Text.isBlank b = true)

/-- A literal with both its quotes. -/
def IsLiteral (cs : List Char) : Prop :=
  ∃ quote content, isQuote quote = true ∧ IsContent quote content ∧
    cs = quote :: (content ++ [quote])

/-- One of the characters that are tokens by themselves. -/
def IsMark (cs : List Char) : Prop := ∃ c, isPunctuation c = true ∧ cs = [c]

/-- Characters that are one token wherever they stand. -/
def IsLexeme (cs : List Char) : Prop := IsWord cs ∨ IsLiteral cs ∨ IsMark cs

theorem isBlank_of_isWordChar {c : Char} (h : isWordChar c = true) : Text.isBlank c = false := by
  simp only [isWordChar, Bool.and_eq_true, Bool.not_eq_true'] at h
  exact h.1.1

theorem isBlank_of_isQuote {c : Char} (h : isQuote c = true) : Text.isBlank c = false := by
  simp only [isQuote, Bool.or_eq_true, decide_eq_true_eq] at h
  rcases h with rfl | rfl <;> decide

theorem isBlank_of_isPunctuation {c : Char} (h : isPunctuation c = true) :
    Text.isBlank c = false := by
  simp only [isPunctuation, Bool.or_eq_true, decide_eq_true_eq] at h
  rcases h with ((rfl | rfl) | rfl) | rfl <;> decide

theorem not_isWordChar_of_isQuote {c : Char} (h : isQuote c = true) : isWordChar c = false := by
  simp [isWordChar, h]

theorem not_isWordChar_of_isPunctuation {c : Char} (h : isPunctuation c = true) :
    isWordChar c = false := by
  simp [isWordChar, h]

theorem isWordChar_of_isAlphanum {c : Char} (h : c.isAlphanum = true) :
    isWordChar c = true ∧ c ≠ '\\' := by
  have hrange : (65 ≤ c.toNat ∧ c.toNat ≤ 90) ∨ (97 ≤ c.toNat ∧ c.toNat ≤ 122) ∨
      (48 ≤ c.toNat ∧ c.toNat ≤ 57) := by
    rwa [Text.isAlphanum_iff, Text.isAlpha_iff, Text.isUpper_iff, Text.isLower_iff,
      Text.isDigit_iff, or_assoc] at h
  have hne : ∀ d : Char, ¬ ((65 ≤ d.toNat ∧ d.toNat ≤ 90) ∨ (97 ≤ d.toNat ∧ d.toNat ≤ 122) ∨
      (48 ≤ d.toNat ∧ d.toNat ≤ 57)) → c ≠ d := by
    rintro d hd rfl
    exact hd hrange
  refine ⟨?_, hne _ (by decide)⟩
  have hblank : Text.isBlank c = false := by
    simp only [Text.isBlank, Bool.or_eq_false_iff, Bool.and_eq_false_iff, beq_eq_false_iff_ne,
      decide_eq_false_iff_not]
    omega
  have hmark : isPunctuation c = false := by
    simp [isPunctuation, hne '(' (by decide), hne ')' (by decide), hne ',' (by decide),
      hne ';' (by decide)]
  have hquote : isQuote c = false := by
    simp [isQuote, hne '\'' (by decide), hne '"' (by decide)]
  rw [isWordChar, hblank, hmark, hquote]
  rfl

theorem hasNoEscape_of_notMem : ∀ {cs : List Char}, '\\' ∉ cs → HasNoEscape cs
  | [], _ => .nil
  | [c], _ => .singleton c
  | c :: d :: cs, h => by
    rw [List.mem_cons, not_or] at h
    exact List.isChain_cons_cons.mpr ⟨fun hc => absurd hc.symm h.1, hasNoEscape_of_notMem h.2⟩

/-- Letters and digits make a word. -/
theorem isWord_of_isAlphanum {cs : List Char} (hne : cs ≠ [])
    (h : ∀ c ∈ cs, c.isAlphanum = true) : IsWord cs where
  nonempty := hne
  chars c hc := (isWordChar_of_isAlphanum (h c hc)).1
  noEscape := hasNoEscape_of_notMem fun hm => (isWordChar_of_isAlphanum (h _ hm)).2 rfl

/-- A lexeme begins with a character that is no blank, and that goes on with a word only if the
lexeme is one. -/
theorem IsLexeme.exists_cons {cs : List Char} (h : IsLexeme cs) :
    ∃ c rest, cs = c :: rest ∧ Text.isBlank c = false ∧ (isWordChar c = true → IsWord cs) := by
  rcases h with h | ⟨quote, content, hq, -, rfl⟩ | ⟨c, hc, rfl⟩
  · obtain ⟨c, rest, rfl⟩ := List.exists_cons_of_ne_nil h.nonempty
    exact ⟨c, rest, rfl, isBlank_of_isWordChar (h.chars c List.mem_cons_self), fun _ => h⟩
  · refine ⟨quote, _, rfl, isBlank_of_isQuote hq, fun hw => ?_⟩
    rw [not_isWordChar_of_isQuote hq] at hw
    cases hw
  · refine ⟨c, [], rfl, isBlank_of_isPunctuation hc, fun hw => ?_⟩
    rw [not_isWordChar_of_isPunctuation hc] at hw
    cases hw

/-! ### Normalizing a lexeme -/

theorem squeezeBehind_append_of_forall (rest : List Char) : ∀ {cs : List Char},
    (∀ c ∈ cs, Text.isBlank c = false) → squeezeBehind (cs ++ rest) = cs ++ squeezeBehind rest
  | [], _ => rfl
  | c :: cs, h => by
    rw [List.forall_mem_cons] at h
    rw [List.cons_append, squeezeBehind_cons h.1, squeezeBehind_append_of_forall rest h.2]
    rfl

/-- Single spaces between other characters stay. -/
theorem squeezeBehind_content {quote : Char} (hq : Text.isBlank quote = false)
    (rest : List Char) : ∀ {cs : List Char}, (∀ c ∈ cs, Text.isBlank c = true → c = ' ') →
      (cs.IsChain fun a b => ¬ (Text.isBlank a = true ∧ Text.isBlank b = true)) →
      squeezeBehind (cs ++ quote :: rest) = cs ++ quote :: squeezeBehind rest
  | [], _, _ => squeezeBehind_cons hq rest
  | c :: cs, hs, hr => by
    have ih := squeezeBehind_content hq rest (List.forall_mem_cons.mp hs).2 hr.tail
    cases hc : Text.isBlank c with
    | false => rw [List.cons_append, squeezeBehind_cons hc, ih, List.cons_append]
    | true =>
      obtain rfl := hs c List.mem_cons_self hc
      -- what comes next is no blank
      obtain ⟨e, more, he, hblank⟩ : ∃ e more, cs ++ quote :: rest = e :: more ∧
          Text.isBlank e = false := by
        cases cs with
        | nil => exact ⟨quote, rest, rfl, hq⟩
        | cons e cs =>
          refine ⟨e, _, rfl, ?_⟩
          have hne := (List.isChain_cons_cons.mp hr).1
          rw [not_and, Bool.not_eq_true] at hne
          exact hne hc
      have hone : ∀ b ∈ [' '], Text.isBlank b = true := List.forall_mem_singleton.mpr (by decide)
      have hsqueeze := squeezeBehind_blanks hblank more hone (List.cons_ne_nil _ _)
      rw [he, squeezeBehind_cons hblank] at ih
      rw [List.cons_append, he]
      exact hsqueeze.trans (congrArg (' ' :: ·) ih)

/-- A lexeme keeps its characters in normal form. -/
theorem squeezeBlanks_lexeme {cs : List Char} (h : IsLexeme cs) (rest : List Char) :
    squeezeBlanks (cs ++ rest) = cs ++ squeezeBehind rest := by
  have hfirst := h.exists_cons
  have hbehind : squeezeBehind (cs ++ rest) = cs ++ squeezeBehind rest := by
    rcases h with h | ⟨quote, content, hq, hcontent, rfl⟩ | ⟨c, hc, rfl⟩
    · exact squeezeBehind_append_of_forall rest fun c hc => isBlank_of_isWordChar (h.chars c hc)
    · have hblank := isBlank_of_isQuote hq
      have hrest := squeezeBehind_content hblank rest hcontent.spaces hcontent.noRuns
      rw [List.cons_append, List.append_assoc, List.singleton_append, squeezeBehind_cons hblank,
        hrest]
      simp
    · exact squeezeBehind_cons (isBlank_of_isPunctuation hc) rest
  obtain ⟨c, more, rfl, hc, -⟩ := hfirst
  rw [← hbehind, List.cons_append, squeezeBlanks_cons hc, squeezeBehind_cons hc]

theorem unescapeBlanks_lexeme {cs rest : List Char} (h : IsLexeme cs)
    (hrest : IsWord cs → ∀ d ∈ rest.head?, d ∉ ['n', 't', 'r']) :
    unescapeBlanks (cs ++ rest) = cs ++ unescapeBlanks rest := by
  rcases h with h | ⟨quote, content, hq, hcontent, rfl⟩ | ⟨c, hc, rfl⟩
  · exact unescapeBlanks_append rest h.noEscape fun _ => hrest h
  · have hquote : quote ∉ ['n', 't', 'r'] ∧ quote ≠ '\\' := by
      simp only [isQuote, Bool.or_eq_true, decide_eq_true_eq] at hq
      rcases hq with rfl | rfl <;> decide
    have hlast : unescapeBlanks (quote :: rest) = quote :: unescapeBlanks rest :=
      unescapeBlanks_cons fun he => absurd he hquote.2
    have hinner := unescapeBlanks_append (quote :: rest) hcontent.noEscape fun _ d hd =>
      Option.some.inj hd ▸ hquote.1
    rw [List.cons_append, List.append_assoc, List.singleton_append, unescapeBlanks_cons
      (fun he => absurd he hquote.2), hinner, hlast]
    simp
  · have hne : c ≠ '\\' := by
      rintro rfl
      exact absurd hc (by decide)
    rw [List.singleton_append, unescapeBlanks_cons fun he => absurd he hne]
    rfl

/-! ### Scanning a lexeme -/

theorem scan_nil : scan [] = [] := by rw [scan.eq_def]

theorem scan_cons (c : Char) (rest : List Char) :
    scan (c :: rest) =
      if Text.isBlank c then scan rest
      else if isPunctuation c then [c] :: scan rest
      else if isQuote c then (c :: literalBody c rest) :: scan (afterLiteral c rest)
      else (c :: rest.takeWhile isWordChar) :: scan (rest.dropWhile isWordChar) := by
  rw [scan.eq_def]

theorem scan_space (rest : List Char) : scan (' ' :: rest) = scan rest := by
  rw [scan_cons, if_pos (by decide)]

theorem scan_mark {c : Char} (h : isPunctuation c = true) (rest : List Char) :
    scan (c :: rest) = [c] :: scan rest := by
  rw [scan_cons, if_neg (by rw [isBlank_of_isPunctuation h]; decide), if_pos h]

theorem not_isPunctuation_of_isQuote {c : Char} (h : isQuote c = true) :
    isPunctuation c = false := by
  simp only [isQuote, Bool.or_eq_true, decide_eq_true_eq] at h
  rcases h with rfl | rfl <;> decide

theorem scan_literal {quote : Char} (h : isQuote quote = true) {content : List Char}
    (hc : quote ∉ content) (rest : List Char) :
    scan (quote :: (content ++ quote :: rest)) = (quote :: (content ++ [quote])) :: scan rest := by
  have htake : ∀ c ∈ content, (c != quote) = true :=
    fun c hm => bne_iff_ne.mpr fun he => hc (he ▸ hm)
  have hbody : literalBody quote (content ++ quote :: rest) = content ++ [quote] := by
    rw [literalBody, List.takeWhile_append_of_pos htake, List.dropWhile_append_of_pos htake]
    simp
  have hafter : afterLiteral quote (content ++ quote :: rest) = rest := by
    rw [afterLiteral, List.dropWhile_append_of_pos htake]
    simp
  rw [scan_cons, if_neg (by rw [isBlank_of_isQuote h]; decide),
    if_neg (by rw [not_isPunctuation_of_isQuote h]; decide), if_pos h, hbody, hafter]

theorem scan_word {cs rest : List Char} (h : IsWord cs)
    (hrest : ∀ c ∈ rest.head?, isWordChar c = false) : scan (cs ++ rest) = cs :: scan rest := by
  obtain ⟨c, cs, rfl⟩ := List.exists_cons_of_ne_nil h.nonempty
  have hall := List.forall_mem_cons.mp h.chars
  obtain ⟨htake, hdrop⟩ := takeWhile_append_of_ends hall.2 hrest
  have hc := hall.1
  simp only [isWordChar, Bool.and_eq_true, Bool.not_eq_true'] at hc
  rw [List.cons_append, scan_cons, if_neg (by rw [hc.1.1]; decide), if_neg (by rw [hc.1.2]; decide),
    if_neg (by rw [hc.2]; decide), htake, hdrop]

theorem scan_lexeme {cs rest : List Char} (h : IsLexeme cs)
    (hrest : IsWord cs → ∀ c ∈ rest.head?, isWordChar c = false) :
    scan (cs ++ rest) = cs :: scan rest := by
  rcases h with h | ⟨quote, content, hq, hcontent, rfl⟩ | ⟨c, hc, rfl⟩
  · exact scan_word h (hrest h)
  · rw [List.cons_append, List.append_assoc, List.singleton_append,
      scan_literal hq hcontent.quote_notMem]
  · exact scan_mark hc rest

/-! ### Texts that lay out tokens -/

/-- The characters write the lexemes one after the other, with gaps behind them; between two words
the gap is not empty. -/
inductive LaysOut : List (List Char) → List Char → Prop
  | nil : LaysOut [] []
  | cons {lexeme gap cs : List Char} {lexemes : List (List Char)} : IsGap gap →
      (gap = [] → IsWord lexeme → ∀ next ∈ lexemes.head?, ¬ IsWord next) → LaysOut lexemes cs →
      LaysOut (lexeme :: lexemes) (lexeme ++ (gap ++ cs))

/-- Lexemes with a space behind each are laid out. -/
theorem LaysOut.spaced : ∀ lexemes : List (List Char),
    LaysOut lexemes (lexemes.flatMap (· ++ [' ']))
  | [] => .nil
  | lexeme :: lexemes => by
    have hgap : IsGap [' '] := .blank (by decide) .nil
    rw [List.flatMap_cons, List.append_assoc]
    exact .cons hgap (fun he => by cases he) (LaysOut.spaced lexemes)

/-- The first character of what lays out lexemes goes on with a word only if the first lexeme is
one. -/
theorem LaysOut.head_cases {lexemes : List (List Char)} {cs : List Char}
    (h : LaysOut lexemes cs) (hl : ∀ lexeme ∈ lexemes, IsLexeme lexeme) :
    ∀ c ∈ cs.head?, isWordChar c = true → ∃ lexeme ∈ lexemes.head?, IsWord lexeme := by
  cases h with
  | nil => exact fun c hc => by cases hc
  | @cons lexeme gap cs lexemes _ _ _ =>
    obtain ⟨c, rest, rfl, -, hw⟩ := (hl lexeme List.mem_cons_self).exists_cons
    intro d hd hword
    obtain rfl := Option.some.inj hd
    exact ⟨_, rfl, hw hword⟩

theorem IsGap.head_notMem {gap : List Char} (h : IsGap gap) : ∀ c ∈ gap.head?,
    c ∉ ['n', 't', 'r'] := by
  cases h with
  | nil => exact fun c hc => by cases hc
  | blank hb _ =>
    rintro c hc hm
    obtain rfl := Option.some.inj hc
    simp only [List.mem_cons, List.not_mem_nil, or_false] at hm
    rcases hm with rfl | rfl | rfl <;> exact absurd hb (by decide)
  | escape _ _ =>
    rintro c hc
    obtain rfl := Option.some.inj hc
    decide

/-- Normalized behind another character, what lays out lexemes is cut into them. -/
theorem scan_of_laysOut {lexemes : List (List Char)} {cs : List Char} (h : LaysOut lexemes cs) :
    (∀ lexeme ∈ lexemes, IsLexeme lexeme) →
      (lexemes = [] ∧ unescapeBlanks cs = []) ∨
        ∃ c rest, unescapeBlanks cs = c :: rest ∧ Text.isBlank c = false ∧
          (isWordChar c = true → ∃ lexeme ∈ lexemes.head?, IsWord lexeme) ∧
          scan (c :: squeezeBehind rest) = lexemes := by
  induction h with
  | nil => exact fun _ => .inl ⟨rfl, rfl⟩
  | @cons lexeme gap cs lexemes hgap hsep hlays ih =>
    intro hl
    rw [List.forall_mem_cons] at hl
    right
    obtain ⟨blanks, hblanks, hempty, hrest⟩ := hgap.exists_blanks
    have hunescape : unescapeBlanks (lexeme ++ (gap ++ cs)) =
        lexeme ++ (blanks ++ unescapeBlanks cs) := by
      rw [unescapeBlanks_lexeme hl.1, hrest]
      intro hword c hc
      by_cases hg : gap = []
      · rw [hg, List.nil_append] at hc
        intro hm
        have hwordChar : isWordChar c = true := by
          simp only [List.mem_cons, List.not_mem_nil, or_false] at hm
          rcases hm with rfl | rfl | rfl <;> decide
        obtain ⟨next, hnext, hw⟩ := hlays.head_cases hl.2 c hc hwordChar
        exact hsep hg hword next hnext hw
      · refine hgap.head_notMem c ?_
        rwa [List.head?_append_of_ne_nil _ hg] at hc
    -- what follows the lexeme in normal form is cut into the other lexemes
    have hbehind : scan (squeezeBehind (blanks ++ unescapeBlanks cs)) = lexemes ∧
        (IsWord lexeme → ∀ c ∈ (squeezeBehind (blanks ++ unescapeBlanks cs)).head?,
          isWordChar c = false) := by
      rcases ih hl.2 with ⟨rfl, hcs⟩ | ⟨c, rest, hcs, hc, hw, hscan⟩
      · rw [hcs, List.append_nil, squeezeBehind_of_forall_isBlank hblanks]
        exact ⟨scan_nil, fun _ c hc => by cases hc⟩
      · rw [hcs]
        by_cases hb : blanks = []
        · rw [hb, List.nil_append, squeezeBehind_cons hc]
          refine ⟨hscan, fun hword d hd => ?_⟩
          obtain rfl := Option.some.inj hd
          rw [Bool.eq_false_iff]
          intro hwc
          obtain ⟨next, hnext, hwn⟩ := hw hwc
          exact hsep (hempty.mp hb) hword next hnext hwn
        · rw [squeezeBehind_blanks hc rest hblanks hb, scan_space]
          refine ⟨hscan, fun _ d hd => ?_⟩
          obtain rfl := Option.some.inj hd
          decide
    have hscan := scan_lexeme hl.1 hbehind.2
    rw [hbehind.1, ← squeezeBlanks_lexeme hl.1] at hscan
    obtain ⟨c, more, rfl, hc, hw⟩ := hl.1.exists_cons
    refine ⟨c, more ++ (blanks ++ unescapeBlanks cs), hunescape, hc,
      fun hwc => ⟨_, rfl, hw hwc⟩, ?_⟩
    rwa [List.cons_append, squeezeBlanks_cons hc] at hscan

/-- A text that lays out tokens, with any gap in front, is cut into these tokens. -/
theorem tokenize_of_laysOut {tokens : List Token} {gap cs : List Char} (hgap : IsGap gap)
    (h : LaysOut (tokens.map fun t => t.text.toList) cs)
    (hl : ∀ t ∈ tokens, IsLexeme t.text.toList) :
    tokenize (String.ofList (gap ++ cs)) = tokens := by
  have hscan : scan (normalChars (gap ++ cs)) = tokens.map fun t => t.text.toList := by
    obtain ⟨blanks, hblanks, -, hrest⟩ := hgap.exists_blanks
    rw [normalChars, hrest, squeezeBlanks_append_of_isBlank _ hblanks]
    have hcut := scan_of_laysOut h (List.forall_mem_map.mpr hl)
    rcases hcut with ⟨hnil, hcs⟩ | ⟨c, rest, hcs, hc, -, hs⟩
    · rw [hnil, hcs, squeezeBlanks, words_nil]
      exact scan_nil
    · rw [hcs, squeezeBlanks_cons hc, hs]
  rw [tokenize, String.toList_ofList, hscan, List.map_map]
  refine (List.map_congr_left fun t _ => ?_).trans (List.map_id tokens)
  rw [Function.comp_apply, String.ofList_toList]
  rfl

end Sql
end DocumentSql
