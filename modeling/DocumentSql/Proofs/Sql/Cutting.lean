/-
# Nothing is lost when a statement is cut into tokens

Each step of the scanner takes one token off the front of the text and leaves
the rest as it is (`scan_step`). The token is a mark, a word, a literal with
both its quotes, or a literal that is never closed; then nothing is left behind
it. No characters are of two kinds (`TokenKind.Fits.unique`), and of the tokens
of a statement those of the third kind are the ones that count as quoted.

A text in normal form has no blanks but single spaces, and none at its ends
(`isSqueezed_normalChars`). So the blanks that the scanner skips are single
spaces between two tokens, and the tokens give the text back when each is put
behind the one before it, with such a space or without (`IsJoined`).

Key definitions: `Sql.TokenKind`, `Sql.TokenKind.Fits`, `Sql.IsJoined`,
`Sql.IsSqueezed`.
Key theorems: `Sql.scan_step`, `Sql.isSqueezed_normalChars`, `Sql.tokenize_lossless`.
-/
import DocumentSql.Proofs.Sql.Layout

namespace DocumentSql
namespace Sql

/-! ### Kinds of tokens -/

/-- What a token of a statement can be. -/
inductive TokenKind where
  | mark
  | word
  | literal
  | openLiteral
deriving DecidableEq

/-- What the characters of a token of the kind are. -/
def TokenKind.Fits : TokenKind → List Char → Prop
  | .mark, cs => IsMark cs
  | .word, cs => cs ≠ [] ∧ ∀ c ∈ cs, isWordChar c = true
  | .literal, cs => ∃ quote content, isQuote quote = true ∧ quote ∉ content ∧
      cs = quote :: (content ++ [quote])
  | .openLiteral, cs => ∃ quote content, isQuote quote = true ∧ quote ∉ content ∧
      cs = quote :: content

namespace TokenKind

variable {kind kind' : TokenKind} {cs : List Char}

/-- The first character of a token tells marks, words and literals apart. -/
theorem Fits.exists_cons (h : kind.Fits cs) :
    ∃ c rest, cs = c :: rest ∧ isPunctuation c = decide (kind = .mark) ∧
      isWordChar c = decide (kind = .word) ∧
      isQuote c = decide (kind = .literal ∨ kind = .openLiteral) := by
  cases kind with
  | mark =>
    obtain ⟨c, hc, rfl⟩ := h
    have hquote : isQuote c = false := by
      rw [Bool.eq_false_iff]
      intro hq
      rw [not_isPunctuation_of_isQuote hq] at hc
      cases hc
    exact ⟨c, [], rfl, hc, not_isWordChar_of_isPunctuation hc, hquote⟩
  | word =>
    obtain ⟨hne, hchars⟩ := h
    obtain ⟨c, rest, rfl⟩ := List.exists_cons_of_ne_nil hne
    have hc := hchars c List.mem_cons_self
    refine ⟨c, rest, rfl, ?_, hc, ?_⟩
    · rw [isWordChar, Bool.and_eq_true, Bool.and_eq_true, Bool.not_eq_true'] at hc
      simpa using hc.1.2
    · rw [isWordChar, Bool.and_eq_true, Bool.not_eq_true'] at hc
      simpa using hc.2
  | literal =>
    obtain ⟨quote, content, hq, -, rfl⟩ := h
    exact ⟨quote, _, rfl, not_isPunctuation_of_isQuote hq, not_isWordChar_of_isQuote hq, hq⟩
  | openLiteral =>
    obtain ⟨quote, content, hq, -, rfl⟩ := h
    exact ⟨quote, _, rfl, not_isPunctuation_of_isQuote hq, not_isWordChar_of_isQuote hq, hq⟩

theorem Fits.ne_nil (h : kind.Fits cs) : cs ≠ [] := by
  obtain ⟨c, rest, rfl, -⟩ := h.exists_cons
  exact List.cons_ne_nil c rest

theorem Fits.length_lt (h : kind.Fits cs) (behind : List Char) :
    behind.length < (cs ++ behind).length := by
  have hpos := List.length_pos_iff.mpr h.ne_nil
  rw [List.length_append]
  omega

/-- A literal that is closed is not one that is left open. -/
theorem not_fits_openLiteral_of_literal (h : literal.Fits cs) : ¬ openLiteral.Fits cs := by
  rintro ⟨quote', content', -, hopen, he⟩
  obtain ⟨quote, content, -, -, rfl⟩ := h
  obtain ⟨rfl, rfl⟩ := List.cons.inj he
  exact hopen (List.mem_append_right _ List.mem_cons_self)

theorem Fits.unique (h : kind.Fits cs) (h' : kind'.Fits cs) : kind = kind' := by
  obtain ⟨c, rest, rfl, hmark, hword, hquote⟩ := h.exists_cons
  obtain ⟨c', rest', he, hmark', hword', hquote'⟩ := h'.exists_cons
  obtain ⟨rfl, rfl⟩ := List.cons.inj he
  rw [hmark, decide_eq_decide] at hmark'
  rw [hword, decide_eq_decide] at hword'
  rw [hquote, decide_eq_decide] at hquote'
  cases kind <;> cases kind' <;> simp at hmark' hword' hquote' ⊢
  · exact not_fits_openLiteral_of_literal h h'
  · exact not_fits_openLiteral_of_literal h' h

end TokenKind

/-! ### One step of the scanner -/

theorem literalBody_append_afterLiteral (quote : Char) (cs : List Char) :
    literalBody quote cs ++ afterLiteral quote cs = cs := by
  rw [literalBody, afterLiteral, List.append_assoc, List.take_append_drop,
    List.takeWhile_append_dropWhile]

theorem quote_notMem_takeWhile (quote : Char) (cs : List Char) :
    quote ∉ cs.takeWhile (· != quote) := by
  intro h
  simpa using List.all_eq_true.mp List.all_takeWhile quote h

theorem fits_literalBody {quote : Char} (h : isQuote quote = true) (cs : List Char) :
    TokenKind.literal.Fits (quote :: literalBody quote cs) ∨
      TokenKind.openLiteral.Fits (quote :: literalBody quote cs) ∧ afterLiteral quote cs = [] := by
  have hnot := quote_notMem_takeWhile quote cs
  cases hbehind : cs.dropWhile (· != quote) with
  | nil =>
    refine .inr ⟨⟨quote, _, h, hnot, ?_⟩, ?_⟩
    · rw [literalBody, hbehind, List.take_nil, List.append_nil]
    · rw [afterLiteral, hbehind, List.drop_nil]
  | cons c rest =>
    have hc : c = quote := by
      have hfirst := List.head?_dropWhile_not (· != quote) cs
      simpa [hbehind] using hfirst
    refine .inl ⟨quote, _, h, hnot, ?_⟩
    rw [literalBody, hbehind, hc]
    rfl

/-- The scanner takes one token off the front and goes on with the rest. A literal that is never
closed has nothing behind it. -/
theorem scan_step {c : Char} (h : Text.isBlank c = false) (rest : List Char) :
    ∃ kind t behind, TokenKind.Fits kind t ∧ c :: rest = t ++ behind ∧
      scan (c :: rest) = t :: scan behind ∧ (kind = .openLiteral → behind = []) := by
  rw [scan_cons, if_neg (Bool.eq_false_iff.mp h)]
  by_cases hmark : isPunctuation c = true
  · exact ⟨.mark, [c], rest, ⟨c, hmark, rfl⟩, rfl, by rw [if_pos hmark], by simp⟩
  rw [if_neg hmark]
  by_cases hquote : isQuote c = true
  · have hsplit : c :: rest = (c :: literalBody c rest) ++ afterLiteral c rest := by
      rw [List.cons_append, literalBody_append_afterLiteral]
    rcases fits_literalBody hquote rest with hfits | ⟨hfits, hend⟩
    · exact ⟨.literal, _, _, hfits, hsplit, by rw [if_pos hquote], by simp⟩
    · exact ⟨.openLiteral, _, _, hfits, hsplit, by rw [if_pos hquote], fun _ => hend⟩
  · have hword : isWordChar c = true := by simp [isWordChar, h, hmark, hquote]
    refine ⟨.word, c :: rest.takeWhile isWordChar, _, ⟨List.cons_ne_nil _ _, ?_⟩, ?_,
      by rw [if_neg hquote], by simp⟩
    · rw [List.forall_mem_cons]
      exact ⟨hword, List.all_eq_true.mp List.all_takeWhile⟩
    · rw [List.cons_append, List.takeWhile_append_dropWhile]

/-- Each token is of some kind, and only the last one can be a literal that is never closed. -/
theorem fits_of_mem_scan (cs : List Char) :
    (∀ t ∈ scan cs, ∃ kind, TokenKind.Fits kind t) ∧
      ∀ t ∈ (scan cs).dropLast, ¬ TokenKind.openLiteral.Fits t := by
  match cs with
  | [] => simp [scan_nil]
  | c :: rest =>
    cases hc : Text.isBlank c with
    | true =>
      rw [scan_cons, if_pos hc]
      exact fits_of_mem_scan rest
    | false =>
      obtain ⟨kind, t, behind, hfits, hsplit, hscan, hopen⟩ := scan_step hc rest
      have hshorter : behind.length < (c :: rest).length := hsplit ▸ hfits.length_lt behind
      have ih := fits_of_mem_scan behind
      rw [hscan, List.forall_mem_cons]
      refine ⟨⟨⟨kind, hfits⟩, ih.1⟩, ?_⟩
      cases hbehind : scan behind with
      | nil => simp
      | cons u more =>
        rw [List.dropLast_cons_cons, List.forall_mem_cons, ← hbehind]
        refine ⟨fun hf => ?_, ih.2⟩
        rw [hopen (hfits.unique hf), scan_nil] at hbehind
        cases hbehind
termination_by cs.length
decreasing_by
  · exact hshorter
  · exact Nat.lt_succ_self rest.length

/-- Of the kinds of tokens one counts as quoted. -/
theorem isSome_betweenQuotes? {kind : TokenKind} {cs : List Char} (h : kind.Fits cs) :
    (Token.betweenQuotes? cs).isSome = true ↔ kind = .literal := by
  obtain ⟨c, rest, rfl, -, -, hquote⟩ := h.exists_cons
  rw [Token.betweenQuotes?, hquote]
  cases kind with
  | mark | word => simp
  | literal =>
    obtain ⟨quote, content, -, -, he⟩ := h
    obtain ⟨rfl, rfl⟩ := List.cons.inj he
    simp
  | openLiteral =>
    obtain ⟨quote, content, -, hnot, he⟩ := h
    obtain ⟨rfl, rfl⟩ := List.cons.inj he
    have hlast : ¬ rest.getLast? = some c := fun hl => hnot (List.mem_of_getLast? hl)
    simp [hlast]

/-! ### Texts in normal form -/

/-- All blanks are single spaces, and there is none at the end. -/
structure IsSqueezed (cs : List Char) : Prop where
  spaces : ∀ c ∈ cs, Text.isBlank c = true → c = ' '
  noRuns : cs.IsChain fun a b => ¬ (Text.isBlank a = true ∧ Text.isBlank b = true)
  last : ∀ c ∈ cs.getLast?, Text.isBlank c = false

theorem isSqueezed_nil : IsSqueezed [] :=
  ⟨List.forall_mem_nil _, .nil, fun c hc => by cases hc⟩

theorem IsSqueezed.of_append {before behind : List Char} (h : IsSqueezed (before ++ behind)) :
    IsSqueezed behind where
  spaces c hc := h.spaces c (List.mem_append_right _ hc)
  noRuns := h.noRuns.right_of_append
  last c hc := h.last c (by rw [List.getLast?_append, Option.mem_def.mp hc]; rfl)

theorem IsSqueezed.cons {c : Char} {cs : List Char} (hc : Text.isBlank c = false)
    (h : IsSqueezed cs) : IsSqueezed (c :: cs) where
  spaces := List.forall_mem_cons.mpr ⟨fun hb => (by rw [hc] at hb; cases hb), h.spaces⟩
  noRuns := by
    refine List.isChain_cons.mpr ⟨fun d _ hb => ?_, h.noRuns⟩
    rw [hc] at hb
    cases hb.1
  last d hd := by
    cases cs with
    | nil => exact Option.some.inj hd ▸ hc
    | cons e cs => exact h.last d (by rwa [List.getLast?_cons_cons] at hd)

theorem IsSqueezed.space {c : Char} {cs : List Char} (hc : Text.isBlank c = false)
    (h : IsSqueezed (c :: cs)) : IsSqueezed (' ' :: c :: cs) where
  spaces := List.forall_mem_cons.mpr ⟨fun _ => rfl, h.spaces⟩
  noRuns := by
    refine List.isChain_cons_cons.mpr ⟨fun hb => ?_, h.noRuns⟩
    rw [hc] at hb
    cases hb.2
  last d hd := h.last d (by rwa [List.getLast?_cons_cons] at hd)

theorem IsSqueezed.append_space {c : Char} {before cs : List Char} (hbefore : IsSqueezed before)
    (hc : Text.isBlank c = false) (h : IsSqueezed (c :: cs)) :
    IsSqueezed (before ++ ' ' :: c :: cs) := by
  have hspaced := h.space hc
  refine ⟨fun d hd => ?_, List.isChain_append.mpr ⟨hbefore.noRuns, hspaced.noRuns, ?_⟩,
    fun d hd => ?_⟩
  · exact (List.mem_append.mp hd).elim (hbefore.spaces d) (hspaced.spaces d)
  · rintro d hd e - ⟨hblank, -⟩
    rw [hbefore.last d hd] at hblank
    cases hblank
  · rw [List.getLast?_append_of_ne_nil _ (List.cons_ne_nil _ _)] at hd
    exact hspaced.last d hd

theorem isSqueezed_of_forall : ∀ {w : List Char}, (∀ c ∈ w, Text.isBlank c = false) → IsSqueezed w
  | [], _ => isSqueezed_nil
  | c :: w, hw => by
    rw [List.forall_mem_cons] at hw
    exact (isSqueezed_of_forall hw.2).cons hw.1

theorem mem_words {w cs : List Char} (h : w ∈ Text.words cs) :
    w ≠ [] ∧ ∀ c ∈ w, Text.isBlank c = false := by
  fun_induction Text.words cs with
  | case1 => cases h
  | case2 c rest hc ih => exact ih h
  | case3 c rest hc ih =>
    rcases List.mem_cons.mp h with rfl | h
    · refine ⟨List.cons_ne_nil _ _, List.forall_mem_cons.mpr ⟨Bool.eq_false_iff.mpr hc, ?_⟩⟩
      intro d hd
      simpa using List.all_eq_true.mp List.all_takeWhile d hd
    · exact ih h

/-- Texts without blanks at their ends have none at the ends of them together, with a space between
each two. -/
theorem isSqueezed_intercalate {t : List Char} {ts : List (List Char)}
    (h : ∀ u ∈ t :: ts, u ≠ [] ∧ IsSqueezed u ∧ ∀ c ∈ u.head?, Text.isBlank c = false) :
    ∃ c cs, [' '].intercalate (t :: ts) = c :: cs ∧ Text.isBlank c = false ∧
      IsSqueezed (c :: cs) := by
  rw [List.forall_mem_cons] at h
  obtain ⟨⟨hne, ht, hfirst⟩, hrest⟩ := h
  obtain ⟨c, t, rfl⟩ := List.exists_cons_of_ne_nil hne
  cases ts with
  | nil => exact ⟨c, t, List.intercalate_singleton, hfirst c rfl, ht⟩
  | cons u ts =>
    obtain ⟨d, cs, he, hd, hs⟩ := isSqueezed_intercalate hrest
    refine ⟨c, t ++ ' ' :: d :: cs, ?_, hfirst c rfl, ht.append_space hd hs⟩
    rw [List.intercalate_cons_cons, he]
    simp

theorem isSqueezed_normalChars (cs : List Char) :
    IsSqueezed (normalChars cs) ∧ ∀ c ∈ (normalChars cs).head?, Text.isBlank c = false := by
  rw [normalChars, squeezeBlanks]
  cases hw : Text.words (unescapeBlanks cs) with
  | nil => exact ⟨isSqueezed_nil, fun c hc => by cases hc⟩
  | cons w ws =>
    have hwords : ∀ v ∈ w :: ws,
        v ≠ [] ∧ IsSqueezed v ∧ ∀ c ∈ v.head?, Text.isBlank c = false := by
      intro v hv
      obtain ⟨hne, hchars⟩ := mem_words (hw ▸ hv)
      exact ⟨hne, isSqueezed_of_forall hchars, fun c hc => hchars c (List.mem_of_mem_head? hc)⟩
    obtain ⟨c, rest, he, hc, hs⟩ := isSqueezed_intercalate hwords
    rw [he]
    exact ⟨hs, fun d hd => Option.some.inj hd ▸ hc⟩

/-! ### Tokens put together -/

/-- `cs` is the tokens, each behind the one before it, next to it or with a space between. -/
inductive IsJoined : List (List Char) → List Char → Prop
  | nil : IsJoined [] []
  | last (t : List Char) : IsJoined [t] t
  | cons {t gap cs : List Char} {ts : List (List Char)} : gap = [] ∨ gap = [' '] → ts ≠ [] →
      IsJoined ts cs → IsJoined (t :: ts) (t ++ gap ++ cs)

/-- What is left in normal form begins with a token, or with one space in front of it. -/
theorem IsSqueezed.exists_gap {cs : List Char} (h : IsSqueezed cs) (hne : cs ≠ []) :
    ∃ gap c rest, (gap = [] ∨ gap = [' ']) ∧ cs = gap ++ c :: rest ∧ Text.isBlank c = false ∧
      scan cs = scan (c :: rest) := by
  obtain ⟨c, rest, rfl⟩ := List.exists_cons_of_ne_nil hne
  cases hc : Text.isBlank c with
  | false => exact ⟨[], c, rest, .inl rfl, rfl, hc, rfl⟩
  | true =>
    obtain rfl := h.spaces c List.mem_cons_self hc
    cases rest with
    | nil =>
      have hlast := h.last ' ' rfl
      rw [hc] at hlast
      cases hlast
    | cons d rest =>
      have hd : ¬ Text.isBlank d = true := fun hd => (List.isChain_cons_cons.mp h.noRuns).1 ⟨hc, hd⟩
      exact ⟨[' '], d, rest, .inr rfl, rfl, Bool.eq_false_iff.mpr hd, scan_space _⟩

theorem isJoined_scan {c : Char} {rest : List Char} (hc : Text.isBlank c = false)
    (h : IsSqueezed (c :: rest)) :
    scan (c :: rest) ≠ [] ∧ IsJoined (scan (c :: rest)) (c :: rest) := by
  obtain ⟨kind, t, behind, hfits, hsplit, hscan, -⟩ := scan_step hc rest
  rw [hscan, hsplit]
  refine ⟨List.cons_ne_nil _ _, ?_⟩
  by_cases hend : behind = []
  · rw [hend, scan_nil, List.append_nil]
    exact .last t
  · obtain ⟨gap, d, more, hgap, hbehind, hd, hscan⟩ := (hsplit ▸ h).of_append.exists_gap hend
    have hshorter : (d :: more).length < (c :: rest).length := by
      rw [hsplit]
      refine Nat.lt_of_le_of_lt ?_ (hfits.length_lt behind)
      rw [hbehind, List.length_append]
      exact Nat.le_add_left _ _
    have hrest : IsSqueezed (d :: more) := (hbehind ▸ (hsplit ▸ h).of_append).of_append
    obtain ⟨hne, hjoined⟩ := isJoined_scan hd hrest
    rw [hscan, hbehind, ← List.append_assoc]
    exact .cons hgap hne hjoined
termination_by (c :: rest).length
decreasing_by exact hshorter

/-- **Nothing is lost.** Each token of a statement is of exactly one kind, only the last one can be a
literal that is never closed, those with both their quotes count as quoted, and the tokens put
together again, with single spaces between some of them, are the statement in normal form. -/
theorem tokenize_lossless (sql : String) :
    (∀ t ∈ tokenize sql, ∃! kind : TokenKind, kind.Fits t.text.toList) ∧
      (∀ t ∈ (tokenize sql).dropLast, ¬ TokenKind.openLiteral.Fits t.text.toList) ∧
      (∀ t ∈ tokenize sql, t.isQuoted = true ↔ TokenKind.literal.Fits t.text.toList) ∧
      IsJoined ((tokenize sql).map (·.text.toList)) (normalize sql).toList := by
  have htexts : (tokenize sql).map (·.text.toList) = scan (normalChars sql.toList) := by
    rw [tokenize, List.map_map]
    exact (List.map_congr_left fun cs _ => String.toList_ofList).trans (List.map_id _)
  obtain ⟨hkinds, hopen⟩ := fits_of_mem_scan (normalChars sql.toList)
  rw [← htexts] at hkinds hopen
  have hkind : ∀ t ∈ tokenize sql, ∃ kind, TokenKind.Fits kind t.text.toList := fun t ht =>
    hkinds _ (List.mem_map_of_mem ht)
  refine ⟨fun t ht => ?_, fun t ht => ?_, fun t ht => ?_, ?_⟩
  · obtain ⟨kind, hfits⟩ := hkind t ht
    exact ⟨kind, hfits, fun other hother => hother.unique hfits⟩
  · rw [← List.map_dropLast] at hopen
    exact hopen _ (List.mem_map_of_mem ht)
  · obtain ⟨kind, hfits⟩ := hkind t ht
    rw [Token.isQuoted, Token.unquoted?, Option.isSome_map, isSome_betweenQuotes? hfits]
    exact ⟨fun he => he ▸ hfits, fun hliteral => hfits.unique hliteral⟩
  · rw [htexts, normalize, String.toList_ofList]
    obtain ⟨hsqueezed, hhead⟩ := isSqueezed_normalChars sql.toList
    cases hn : normalChars sql.toList with
    | nil => exact scan_nil ▸ .nil
    | cons c rest =>
      rw [hn] at hsqueezed hhead
      exact (isJoined_scan (hhead c rfl) hsqueezed).2

end Sql
end DocumentSql
