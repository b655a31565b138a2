/-
# Normal forms stay as they are

A text in normal form has no blanks but single spaces between other characters
and no escape (`Sql.IsNormal`). Normalizing brings every text there
(`Sql.isNormal_normalChars`): what stands in place of an escape is a space, and
a run of blanks leaves one, so that no backslash comes to stand before a letter
that it did not stand before already. And it changes nothing of a text that is in
normal form (`Sql.normalChars_eq_iff`).

The tokens of such a text are in normal form too, a literal that is never closed
included, for it takes the text to its end. So they can be put one behind the
other with single spaces between them: that is a text in normal form again, and
it is cut into the same tokens (`Sql.scan_intercalate`).

Key definition: `Sql.IsNormal`.
Key theorems: `Sql.normalChars_eq_iff`, `Sql.scan_intercalate`,
`Sql.tokenize_stable`.
-/
import DocumentSql.Proofs.Sql.Cutting
import Mathlib.Data.List.Induction

namespace DocumentSql
namespace Sql

/-- A text in normal form: it neither begins nor ends with a blank, all blanks in it are single
spaces, and no backslash stands before `n`, `t` or `r`. -/
structure IsNormal (cs : List Char) : Prop where
  isSqueezed : IsSqueezed cs
  first : ∀ c ∈ cs.head?, Text.isBlank c = false
  hasNoEscape : HasNoEscape cs

theorem isNormal_nil : IsNormal [] := ⟨isSqueezed_nil, by simp, .nil⟩

/-- A space keeps what stands around it apart. -/
theorem HasNoEscape.intercalate : ∀ {ts : List (List Char)}, (∀ t ∈ ts, HasNoEscape t) →
    HasNoEscape ([' '].intercalate ts)
  | [], _ => .nil
  | [t], h => List.intercalate_singleton ▸ h t List.mem_cons_self
  | t :: next :: ts, h => by
    rw [List.forall_mem_cons] at h
    have hrest : HasNoEscape (' ' :: [' '].intercalate (next :: ts)) :=
      List.isChain_cons.mpr ⟨fun _ _ he => absurd he (by decide), HasNoEscape.intercalate h.2⟩
    rw [List.intercalate_cons_cons, List.append_assoc, List.singleton_append]
    refine List.isChain_append.mpr ⟨h.1, hrest, fun c _ d hd _ => ?_⟩
    rw [← Option.some.inj hd]
    decide

/-- Texts in normal form with a space between each two of them are in normal form. -/
theorem isNormal_intercalate {ts : List (List Char)} (h : ∀ t ∈ ts, t ≠ [] ∧ IsNormal t) :
    IsNormal ([' '].intercalate ts) := by
  have hescape := HasNoEscape.intercalate fun t ht => (h t ht).2.hasNoEscape
  cases ts with
  | nil => exact isNormal_nil
  | cons t ts =>
    obtain ⟨c, cs, he, hc, hs⟩ := isSqueezed_intercalate fun u hu =>
      ⟨(h u hu).1, (h u hu).2.isSqueezed, (h u hu).2.first⟩
    rw [he] at hescape ⊢
    exact ⟨hs, fun d hd => Option.some.inj hd ▸ hc, hescape⟩

/-! ### Normalizing gives a normal form -/

/-- What stands in front without its escapes stood in front, or is a space. -/
theorem head?_unescapeBlanks (cs : List Char) :
    ∀ d ∈ (unescapeBlanks cs).head?, d = ' ' ∨ d ∈ cs.head? := by
  fun_cases unescapeBlanks cs with
  | case1 | case2 | case3 => exact fun d hd => .inl (Option.some.inj hd).symm
  | case4 => exact fun d hd => .inr hd
  | case5 => exact fun d hd => by cases hd

/-- A backslash that stays has behind it what it had before, or a space. -/
theorem hasNoEscape_unescapeBlanks (cs : List Char) : HasNoEscape (unescapeBlanks cs) := by
  fun_induction unescapeBlanks cs with
  | case1 rest ih | case2 rest ih | case3 rest ih =>
    exact List.isChain_cons.mpr ⟨fun _ _ he => absurd he (by decide), ih⟩
  | case4 c rest hn ht hr ih =>
    refine List.isChain_cons.mpr ⟨fun d hd he hm => ?_, ih⟩
    rcases head?_unescapeBlanks rest d hd with rfl | hd
    · exact absurd hm (by decide)
    · obtain ⟨more, rfl⟩ : ∃ more, rest = d :: more := by
        cases rest with
        | nil => cases hd
        | cons e more => exact ⟨more, by rw [Option.some.inj hd]⟩
      simp only [List.mem_cons, List.not_mem_nil, or_false] at hm
      rcases hm with rfl | rfl | rfl
      · exact hn more he rfl
      · exact ht more he rfl
      · exact hr more he rfl
  | case5 => exact .nil

/-- The backslash in front of an escape is left before the space, and not before the next letter. -/
example : unescapeBlanks "\\\\nn".toList = "\\ n".toList := by decide

theorem isInfix_of_mem_words {cs w : List Char} (hw : w ∈ Text.words cs) : w <:+: cs := by
  fun_induction Text.words cs with
  | case1 => cases hw
  | case2 c rest hc ih => exact (ih hw).trans (List.suffix_cons c rest).isInfix
  | case3 c rest hc ih =>
    rcases List.mem_cons.mp hw with rfl | hw
    · exact (List.prefix_cons_inj c |>.mpr (List.takeWhile_prefix _)).isInfix
    · exact (ih hw).trans ((List.dropWhile_suffix _).trans (List.suffix_cons c rest)).isInfix

theorem isNormal_normalChars (cs : List Char) : IsNormal (normalChars cs) := by
  obtain ⟨hsqueezed, hfirst⟩ := isSqueezed_normalChars cs
  refine ⟨hsqueezed, hfirst, HasNoEscape.intercalate fun w hw => ?_⟩
  obtain ⟨front, behind, heq⟩ := isInfix_of_mem_words hw
  have hescape := hasNoEscape_unescapeBlanks cs
  rw [← heq] at hescape
  exact hescape.left_of_append.right_of_append

/-! ### Normalizing a normal form -/

theorem HasNoEscape.unescapeBlanks_eq {cs : List Char} (h : HasNoEscape cs) :
    unescapeBlanks cs = cs := by
  have happend := unescapeBlanks_append [] h (by simp)
  simpa [unescapeBlanks] using happend

theorem IsSqueezed.of_cons {c : Char} {cs : List Char} (h : IsSqueezed (c :: cs)) :
    IsSqueezed cs :=
  IsSqueezed.of_append (show IsSqueezed ([c] ++ cs) from h)

/-- The last character is no blank, so single spaces stay in front of it. -/
theorem IsSqueezed.squeezeBehind_eq {cs : List Char} (h : IsSqueezed cs) :
    squeezeBehind cs = cs := by
  have hnil : squeezeBehind [] = [] := squeezeBehind_of_forall_isBlank (List.forall_mem_nil _)
  cases cs using List.reverseRecOn with
  | nil => exact hnil
  | append_singleton front c =>
    have hc : Text.isBlank c = false := h.last c List.getLast?_concat
    have hspaces : ∀ d ∈ front, Text.isBlank d = true → d = ' ' :=
      fun d hd => h.spaces d (List.mem_append_left _ hd)
    rw [squeezeBehind_content hc [] hspaces h.noRuns.left_of_append, hnil]

theorem IsNormal.normalChars_eq {cs : List Char} (h : IsNormal cs) : normalChars cs = cs := by
  rw [normalChars, h.hasNoEscape.unescapeBlanks_eq]
  cases cs with
  | nil => rw [squeezeBlanks, words_nil]; rfl
  | cons c cs => rw [squeezeBlanks_cons (h.first c rfl), h.isSqueezed.of_cons.squeezeBehind_eq]

/-- The texts that normalizing leaves alone are those in normal form. -/
theorem normalChars_eq_iff {cs : List Char} : normalChars cs = cs ↔ IsNormal cs :=
  ⟨fun h => h ▸ isNormal_normalChars cs, IsNormal.normalChars_eq⟩

/-! ### The tokens of a normal form -/

section Tokens

variable {kind : TokenKind} {t : List Char}

theorem TokenKind.Fits.first (h : kind.Fits t) : ∀ c ∈ t.head?, Text.isBlank c = false := by
  intro c hc
  cases kind with
  | mark =>
    obtain ⟨d, hd, rfl⟩ := h
    exact Option.some.inj hc ▸ isBlank_of_isPunctuation hd
  | word => exact isBlank_of_isWordChar (h.2 c (List.mem_of_mem_head? hc))
  | literal | openLiteral =>
    obtain ⟨quote, content, hq, -, rfl⟩ := h
    exact Option.some.inj hc ▸ isBlank_of_isQuote hq

/-- Only a literal that is never closed can end in a blank. -/
theorem TokenKind.Fits.last (h : kind.Fits t) (hkind : kind ≠ .openLiteral) :
    ∀ c ∈ t.getLast?, Text.isBlank c = false := by
  intro c hc
  cases kind with
  | mark =>
    obtain ⟨d, hd, rfl⟩ := h
    exact Option.some.inj hc ▸ isBlank_of_isPunctuation hd
  | word => exact isBlank_of_isWordChar (h.2 c (List.mem_of_getLast? hc))
  | literal =>
    obtain ⟨quote, content, hq, -, rfl⟩ := h
    rw [← List.cons_append, List.getLast?_concat] at hc
    exact Option.some.inj hc ▸ isBlank_of_isQuote hq
  | openLiteral => exact absurd rfl hkind

/-- Each token is in normal form if the blanks of the text are single spaces and it has no
escape. -/
theorem isNormal_of_mem_scan {cs : List Char} (hsqueezed : IsSqueezed cs)
    (hescape : HasNoEscape cs) : ∀ t ∈ scan cs, IsNormal t := by
  match cs with
  | [] => simp [scan_nil]
  | c :: rest =>
    cases hc : Text.isBlank c with
    | true =>
      rw [scan_cons, if_pos hc]
      exact isNormal_of_mem_scan hsqueezed.of_cons hescape.tail
    | false =>
      obtain ⟨kind, t, behind, hfits, hsplit, hscan, hopen⟩ := scan_step hc rest
      have hshorter : behind.length < (c :: rest).length := hsplit ▸ hfits.length_lt behind
      rw [hsplit] at hsqueezed hescape
      have ih := isNormal_of_mem_scan hsqueezed.of_append hescape.right_of_append
      rw [hscan, List.forall_mem_cons]
      refine ⟨⟨⟨?_, hsqueezed.noRuns.left_of_append, ?_⟩, hfits.first, hescape.left_of_append⟩, ih⟩
      · exact fun d hd => hsqueezed.spaces d (List.mem_append_left _ hd)
      · by_cases hkind : kind = .openLiteral
        · have hlast := hsqueezed.last
          rwa [hopen hkind, List.append_nil] at hlast
        · exact hfits.last hkind
termination_by cs.length
decreasing_by
  · exact hshorter
  · exact Nat.lt_succ_self rest.length

/-! ### Tokens with single spaces between them -/

/-- In normal form, a token that is no literal without its closing quote is one wherever it
stands. -/
theorem IsNormal.isLexeme (h : IsNormal t) (hfits : kind.Fits t) (hkind : kind ≠ .openLiteral) :
    IsLexeme t := by
  cases kind with
  | mark => exact .inr (.inr hfits)
  | word => exact .inl ⟨hfits.1, hfits.2, h.hasNoEscape⟩
  | literal =>
    obtain ⟨quote, content, hq, hnot, rfl⟩ := hfits
    refine .inr (.inl ⟨quote, content, hq, ⟨hnot, ?_, fun c hc => ?_, ?_⟩, rfl⟩)
    · exact h.hasNoEscape.tail.left_of_append
    · exact h.isSqueezed.of_cons.spaces c (List.mem_append_left _ hc)
    · exact h.isSqueezed.of_cons.noRuns.left_of_append
  | openLiteral => exact absurd rfl hkind

theorem scan_openLiteral {quote : Char} (h : isQuote quote = true) {content : List Char}
    (hc : quote ∉ content) : scan (quote :: content) = [quote :: content] := by
  have htake : ∀ c ∈ content, (c != quote) = true :=
    fun c hm => bne_iff_ne.mpr fun he => hc (he ▸ hm)
  have hbody : literalBody quote content = content := by
    rw [literalBody, List.takeWhile_eq_self_iff.mpr htake, List.dropWhile_eq_nil_iff.mpr htake]
    simp
  have hafter : afterLiteral quote content = [] := by
    rw [afterLiteral, List.dropWhile_eq_nil_iff.mpr htake, List.drop_nil]
  rw [scan_cons, if_neg (by rw [isBlank_of_isQuote h]; decide),
    if_neg (by rw [not_isPunctuation_of_isQuote h]; decide), if_pos h, hbody, hafter, scan_nil]

theorem scan_token (h : IsNormal t) (hfits : kind.Fits t) : scan t = [t] := by
  by_cases hkind : kind = .openLiteral
  · subst hkind
    obtain ⟨quote, content, hq, hnot, rfl⟩ := hfits
    exact scan_openLiteral hq hnot
  · have hscan : scan (t ++ []) = t :: scan [] := scan_lexeme (h.isLexeme hfits hkind) (by simp)
    rwa [List.append_nil, scan_nil] at hscan

/-- Tokens in normal form, of which only the last one can be a literal that is never closed, are
what the text of them is cut into when a space stands between each two. -/
theorem scan_intercalate : ∀ {ts : List (List Char)}, (∀ t ∈ ts, IsNormal t) →
    (∀ t ∈ ts, ∃ kind, TokenKind.Fits kind t) →
    (∀ t ∈ ts.dropLast, ¬ TokenKind.openLiteral.Fits t) → scan ([' '].intercalate ts) = ts
  | [], _, _, _ => scan_nil
  | [t], hnormal, hkinds, _ => by
    obtain ⟨kind, hfits⟩ := hkinds t List.mem_cons_self
    rw [List.intercalate_singleton, scan_token (hnormal t List.mem_cons_self) hfits]
  | t :: next :: ts, hnormal, hkinds, hopen => by
    rw [List.forall_mem_cons] at hnormal hkinds
    rw [List.dropLast_cons_cons, List.forall_mem_cons] at hopen
    obtain ⟨kind, hfits⟩ := hkinds.1
    have hlexeme := hnormal.1.isLexeme hfits fun hkind => hopen.1 (hkind ▸ hfits)
    have ih := scan_intercalate hnormal.2 hkinds.2 hopen.2
    have hspace : ∀ c ∈ (' ' :: [' '].intercalate (next :: ts)).head?, isWordChar c = false :=
      fun c hc => Option.some.inj hc ▸ (by decide)
    rw [List.intercalate_cons_cons, List.append_assoc, List.singleton_append,
      scan_lexeme hlexeme fun _ => hspace, scan_space, ih]

end Tokens

/-- **Normal forms are stable.** Normalizing a statement gives one that has no blanks but single
spaces between other characters, and no escape, and it changes nothing of those that are so already,
its own results among them. A normalized statement has the tokens of the one it comes from. So has
the text of these tokens with a space between each two of them, whether or not the last one is a
literal that is never closed. -/
theorem tokenize_stable (sql : String) :
    IsNormal (normalize sql).toList ∧ (normalize sql = sql ↔ IsNormal sql.toList) ∧
      normalize (normalize sql) = normalize sql ∧ tokenize (normalize sql) = tokenize sql ∧
      tokenize (" ".intercalate ((tokenize sql).map (·.text))) = tokenize sql := by
  have hnormal := isNormal_normalChars sql.toList
  have hchars : (normalize sql).toList = normalChars sql.toList := String.toList_ofList
  obtain ⟨hkinds, hopen⟩ := fits_of_mem_scan (normalChars sql.toList)
  have htokens := isNormal_of_mem_scan hnormal.isSqueezed hnormal.hasNoEscape
  refine ⟨hchars ▸ hnormal, ?_, ?_, ?_, ?_⟩
  · rw [← String.toList_inj, hchars, normalChars_eq_iff]
  · rw [normalize, hchars, hnormal.normalChars_eq, normalize]
  · rw [tokenize, hchars, hnormal.normalChars_eq, tokenize]
  · have htexts : (" ".intercalate ((tokenize sql).map (·.text))).toList =
        [' '].intercalate (scan (normalChars sql.toList)) := by
      rw [String.toList_intercalate, tokenize, List.map_map, List.map_map]
      refine congrArg _ ((List.map_congr_left fun cs _ => ?_).trans (List.map_id _))
      exact String.toList_ofList
    have hjoined : IsNormal ([' '].intercalate (scan (normalChars sql.toList))) :=
      isNormal_intercalate fun t ht => ⟨(hkinds t ht).choose_spec.ne_nil, htokens t ht⟩
    rw [tokenize, htexts, hjoined.normalChars_eq, scan_intercalate htokens hkinds hopen, tokenize]

end Sql
end DocumentSql
