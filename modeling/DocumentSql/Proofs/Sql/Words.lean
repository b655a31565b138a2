/-
# How single tokens are read

A keyword is read as itself in either case, and as no other word
(`Token.isWord_congr`). A name is neither a reserved word nor a mark, so it ends
no clause (`Name.atBoundary_eq_false`). What ends a clause begins with one of
the clause's stops or with a semicolon, so it is no other word
(`afterWord?_of_atBoundary`). The token of a value is read as that value
(`Value.scalar_of_isWrittenAs`).

Key theorems: `Name.atBoundary_eq_false`, `afterWord?_of_atBoundary`,
`connector_of_atBoundary`, `Operator.ofOperator_of_isWrittenAs`,
`Value.scalar_of_isWrittenAs`.
-/
import DocumentSql.Proofs.Scalar
import DocumentSql.Proofs.Sql.Clauses

namespace DocumentSql

/-! ### The closed sets of words -/

namespace Text

theorem upper_eq_of_sameWord {word keyword : String} (h : sameWord word keyword = true)
    (hk : upper keyword = keyword) : upper word = keyword := by
  rw [sameWord, beq_iff_eq] at h
  rw [h, hk]

theorem sameWord_of_upper_eq {word keyword : String} (h : upper word = keyword)
    (hk : upper keyword = keyword) : sameWord word keyword = true := by
  rw [sameWord, h, hk, beq_iff_eq]

end Text

theorem StatementKind.ofWord_select {word : String} (h : Text.sameWord word "SELECT" = true) :
    ofWord word = .select := by
  unfold ofWord
  rw [Text.upper_eq_of_sameWord h (by decide)]
  rfl

theorem JoinKind.ofWord?_eq_some {word : String} {kind : JoinKind}
    (h : Text.sameWord word kind.text = true) : ofWord? word = some kind := by
  unfold ofWord?
  cases kind <;> rw [Text.upper_eq_of_sameWord h (by decide)] <;> rfl

theorem AggregateFunction.ofWord?_eq_some {word : String} {function : AggregateFunction}
    (h : Text.sameWord word function.text = true) : ofWord? word = some function := by
  unfold ofWord?
  cases function <;> rw [Text.upper_eq_of_sameWord h (by decide)] <;> rfl

theorem Connector.ofWord?_eq_some {word : String} {connector : Connector}
    (h : Text.sameWord word connector.text = true) : ofWord? word = some connector := by
  unfold ofWord?
  cases connector <;> rw [Text.upper_eq_of_sameWord h (by decide)] <;> rfl

theorem Connector.ofWord?_eq_none {word : String}
    (h : ∀ keyword ∈ ["AND", "OR"], Text.sameWord word keyword = false) :
    ofWord? word = none := by
  simp only [List.forall_mem_cons] at h
  unfold ofWord?
  split
  · rename_i hu
    rw [Text.sameWord_of_upper_eq hu (by decide)] at h
    cases h.1
  · rename_i hu
    rw [Text.sameWord_of_upper_eq hu (by decide)] at h
    cases h.2.1
  · rfl

theorem Direction.ofWord?_eq_some {word : String} {direction : Direction}
    (h : Text.sameWord word direction.text = true) : ofWord? word = some direction := by
  unfold ofWord?
  cases direction <;> rw [Text.upper_eq_of_sameWord h (by decide)] <;> rfl

theorem Direction.ofWord?_eq_none {word : String}
    (h : ∀ keyword ∈ ["ASC", "DESC"], Text.sameWord word keyword = false) :
    ofWord? word = none := by
  simp only [List.forall_mem_cons] at h
  unfold ofWord?
  split
  · rename_i hu
    rw [Text.sameWord_of_upper_eq hu (by decide)] at h
    cases h.1
  · rename_i hu
    rw [Text.sameWord_of_upper_eq hu (by decide)] at h
    cases h.2.1
  · rfl

namespace Sql

/-- An operator is read as its comparison. -/
theorem Operator.ofOperator_of_isWrittenAs {o : Operator} {t : Token}
    (h : o.piece.IsWrittenAs t) : Comparison.ofOperator t.text = o.comparison := by
  cases o
  case like =>
    unfold Comparison.ofOperator
    rw [Text.upper_eq_of_sameWord h (by decide)]
    rfl
  all_goals
    rw [show t.text = _ from h]
    decide

theorem ofOperator_in {t : Token} (h : t.isWord "IN" = true) :
    Comparison.ofOperator t.text = .inList := by
  unfold Comparison.ofOperator
  rw [Text.upper_eq_of_sameWord h (by decide)]
  rfl

/-! ### Keywords, names and marks -/

/-- A keyword is no other word. -/
theorem Token.isWord_congr {t : Token} {word : String} (h : t.isWord word = true)
    (other : String) : t.isWord other = Text.sameWord word other := Text.sameWord_congr h other

/-- A word is no mark. -/
theorem Token.isChar_eq_false_of_isWord {t : Token} (h : IsWord t.text.toList) {c : Char}
    (hc : isPunctuation c = true) : t.isChar c = false := by
  rw [Token.isChar, beq_eq_false_iff_ne]
  intro he
  have hw := h.chars c (he ▸ List.mem_singleton.mpr rfl)
  rw [not_isWordChar_of_isPunctuation hc] at hw
  cases hw

namespace Name

variable {name : Name} {t : Token}

theorem isWord_eq_false (ht : t.text = name.text) {keyword : String} (hk : keyword ∈ reserved) :
    t.isWord keyword = false := by
  rw [Token.isWord, ht]
  exact name.free keyword hk

theorem isChar_eq_false (ht : t.text = name.text) {c : Char} (hc : isPunctuation c = true) :
    t.isChar c = false := Token.isChar_eq_false_of_isWord (ht ▸ name.isWord) hc

/-- A name ends no clause. -/
theorem atBoundary_eq_false (ht : t.text = name.text) {stops : List String}
    (hs : ∀ stop ∈ stops, stop ∈ reserved) (rest : List Token) :
    atBoundary stops (t :: rest) = false := by
  have hword : t.isAnyWord stops = false := by
    rw [Token.isAnyWord, List.any_eq_false]
    intro stop hm
    rw [isWord_eq_false ht (hs stop hm)]
    exact Bool.false_ne_true
  rw [atBoundary, hword, isChar_eq_false ht (by decide)]
  rfl

end Name

/-! ### What ends a clause -/

theorem atBoundary_cases {stops : List String} {rest : List Token}
    (h : atBoundary stops rest = true) :
    rest = [] ∨ ∃ t ts, rest = t :: ts ∧ ∃ stop ∈ ";" :: stops, t.isWord stop = true := by
  cases rest with
  | nil => exact .inl rfl
  | cons t ts =>
    refine .inr ⟨t, ts, rfl, ?_⟩
    rw [atBoundary, Bool.or_eq_true, Token.isAnyWord, List.any_eq_true] at h
    rcases h with h | ⟨stop, hm, hw⟩
    · refine ⟨";", List.mem_cons_self, ?_⟩
      rw [Token.isChar, beq_iff_eq] at h
      rw [Token.isWord, String.toList_inj.mp (h.trans (show [';'] = ";".toList by decide))]
      decide
    · exact ⟨stop, List.mem_cons_of_mem _ hm, hw⟩

theorem atBoundary_mono {stops stops' : List String} (hs : ∀ stop ∈ stops, stop ∈ stops')
    {rest : List Token} (h : atBoundary stops rest = true) : atBoundary stops' rest = true := by
  cases rest with
  | nil => rfl
  | cons t ts =>
    rw [atBoundary, Bool.or_eq_true, Token.isAnyWord, List.any_eq_true] at h ⊢
    rcases h with h | ⟨stop, hm, hw⟩
    · exact .inl h
    · exact .inr ⟨stop, hs stop hm, hw⟩

theorem atBoundary_cons_of_isWord {stops : List String} {t : Token} {stop : String}
    (hw : t.isWord stop = true) (hm : stop ∈ stops) (rest : List Token) :
    atBoundary stops (t :: rest) = true := by
  rw [atBoundary, Bool.or_eq_true, Token.isAnyWord, List.any_eq_true]
  exact .inr ⟨stop, hm, hw⟩

/-- What ends a clause does not begin with a word that is no stop of it. -/
theorem isWord_of_atBoundary {stops : List String} {t : Token} {rest : List Token}
    (h : atBoundary stops (t :: rest) = true) {keyword : String}
    (hk : ∀ stop ∈ ";" :: stops, Text.sameWord stop keyword = false) :
    t.isWord keyword = false := by
  rcases atBoundary_cases h with he | ⟨u, us, he, stop, hm, hw⟩
  · cases he
  · obtain ⟨rfl, -⟩ := List.cons.inj he
    rw [Token.isWord_congr hw, hk stop hm]

theorem afterWord?_of_atBoundary {stops : List String} {rest : List Token}
    (h : atBoundary stops rest = true) {keyword : String}
    (hk : ∀ stop ∈ ";" :: stops, Text.sameWord stop keyword = false) :
    afterWord? keyword rest = none := by
  cases rest with
  | nil => rfl
  | cons t ts => rw [afterWord?, isWord_of_atBoundary h hk, if_neg Bool.false_ne_true]

/-- A comma ends no clause. -/
theorem atBoundary_comma {t : Token} (ht : t.text = ",") {stops : List String}
    (hs : ∀ stop ∈ stops, stop ∈ reserved) (rest : List Token) :
    atBoundary stops (t :: rest) = false := by
  have hreserved : ∀ stop ∈ reserved, Text.sameWord "," stop = false := by decide
  have hword : t.isAnyWord stops = false := by
    rw [Token.isAnyWord, List.any_eq_false]
    intro stop hm
    rw [Token.isWord, ht, hreserved stop (hs stop hm)]
    exact Bool.false_ne_true
  have hchar : t.isChar ';' = false := by rw [Token.isChar, ht]; decide
  rw [atBoundary, hword, hchar, Bool.or_false]

theorem afterWord?_of_isWord {keyword : String} {t : Token} (h : t.isWord keyword = true)
    (rest : List Token) : afterWord? keyword (t :: rest) = some rest := if_pos h

theorem afterWord?_of_isWord_eq_false {keyword : String} {t : Token}
    (h : t.isWord keyword = false) (rest : List Token) : afterWord? keyword (t :: rest) = none :=
  if_neg (by rw [h]; exact Bool.false_ne_true)

theorem connector_of_atBoundary {stops : List String} {rest : List Token}
    (h : atBoundary stops rest = true)
    (hs : ∀ stop ∈ ";" :: stops, ∀ keyword ∈ ["AND", "OR"],
      Text.sameWord stop keyword = false) :
    connector rest = (none, rest) ∧ atConnector rest = false := by
  cases rest with
  | nil => exact ⟨rfl, rfl⟩
  | cons t ts =>
    have hnone : Connector.ofWord? t.text = none :=
      Connector.ofWord?_eq_none fun keyword hk =>
        isWord_of_atBoundary h fun stop hm => hs stop hm keyword hk
    simp [connector, atConnector, hnone]

theorem direction_of_atBoundary {stops : List String} {rest : List Token}
    (h : atBoundary stops rest = true)
    (hs : ∀ stop ∈ ";" :: stops, ∀ keyword ∈ ["ASC", "DESC"],
      Text.sameWord stop keyword = false) : direction rest = (.asc, rest) := by
  cases rest with
  | nil => rfl
  | cons t ts =>
    have hnone : Direction.ofWord? t.text = none :=
      Direction.ofWord?_eq_none fun keyword hk =>
        isWord_of_atBoundary h fun stop hm => hs stop hm keyword hk
    simp only [direction, hnone]

/-! ### Values -/

theorem natural?_eq_none {cs : List Char} (h : ¬ IsDigits cs) : Decimal.natural? cs = none := by
  refine if_neg fun hn => h ?_
  rw [Bool.and_eq_true, Bool.not_eq_true', List.isEmpty_eq_false_iff, List.all_eq_true] at hn
  exact hn

theorem isDigits_of_natural? {cs : List Char} {n : Nat} (h : Decimal.natural? cs = some n) :
    IsDigits cs := by
  by_contra hn
  rw [natural?_eq_none hn] at h
  cases h

theorem decimal?_eq_none {cs : List Char}
    (h : ¬ ∃ whole fraction, IsDigits whole ∧ IsDigits fraction ∧
      cs = whole ++ '.' :: fraction) : Token.decimal? cs = none := by
  unfold Token.decimal?
  split
  · rename_i fraction hd
    split
    · rename_i n m hn hm
      refine absurd ⟨_, fraction, isDigits_of_natural? hn, isDigits_of_natural? hm, ?_⟩ h
      rw [← hd, List.takeWhile_append_dropWhile]
    · rfl
  · rfl

theorem unquoted?_eq_none {t : Token} (h : IsWord t.text.toList) : t.unquoted? = none := by
  obtain ⟨c, cs, hcs⟩ := List.exists_cons_of_ne_nil h.nonempty
  have hq : isQuote c = false := by
    have hc := h.chars c (hcs ▸ List.mem_cons_self)
    simp only [isWordChar, Bool.and_eq_true, Bool.not_eq_true'] at hc
    exact hc.2
  rw [Token.unquoted?, hcs, Token.betweenQuotes?, hq, Bool.false_and, if_neg Bool.false_ne_true]
  rfl

theorem isDigit_of_isAlpha {c : Char} (h : c.isAlpha = true) : Decimal.isDigit c = false := by
  have hrange : (65 ≤ c.toNat ∧ c.toNat ≤ 90) ∨ (97 ≤ c.toNat ∧ c.toNat ≤ 122) := by
    rwa [Text.isAlpha_iff, Text.isUpper_iff, Text.isLower_iff] at h
  rw [Bool.eq_false_iff]
  intro hd
  have hdigit : 48 ≤ c.toNat ∧ c.toNat ≤ 57 := by
    simpa [Decimal.isDigit, Char.le_def, UInt32.le_iff_toNat_le] using hd
  omega

/-- A word of letters is no number. -/
theorem wordScalar_of_isAlpha {word : String} (hne : word.toList ≠ [])
    (h : ∀ c ∈ word.toList, c.isAlpha = true) :
    Token.wordScalar word =
      if Text.sameWord word "TRUE" then .bool true
      else if Text.sameWord word "FALSE" then .bool false
      else if Text.sameWord word "NULL" then .null
      else .text word := by
  have hdigits : Decimal.natural? word.toList = none := by
    refine natural?_eq_none fun hd => ?_
    obtain ⟨c, cs, hcs⟩ := List.exists_cons_of_ne_nil hne
    have hm : c ∈ word.toList := hcs ▸ List.mem_cons_self
    exact absurd (hd.2 c hm) (by rw [isDigit_of_isAlpha (h c hm)]; exact Bool.false_ne_true)
  have hdecimal : Token.decimal? word.toList = none := by
    refine decimal?_eq_none ?_
    rintro ⟨whole, fraction, -, -, he⟩
    have hm : '.' ∈ word.toList := he ▸ List.mem_append_right _ List.mem_cons_self
    exact absurd (h _ hm) (by decide)
  rw [Token.wordScalar, hdigits, hdecimal]

/-- A word of letters stands for the constant that it is. -/
theorem scalar_of_isWord {t : Token} {word : String} (hk : (Piece.keyword word).IsSound)
    (h : t.isWord word = true) :
    t.scalar =
      if Text.sameWord word "TRUE" then .bool true
      else if Text.sameWord word "FALSE" then .bool false
      else if Text.sameWord word "NULL" then .null
      else .text t.text := by
  have hw := Piece.isWord_of_keyword hk h
  rw [Token.scalar, unquoted?_eq_none hw]
  simp only
  have hupper := List.all_eq_true.mp hk.2
  rw [wordScalar_of_isAlpha hw.nonempty fun c hc => Text.isAlpha_of_sameWord h hupper hc,
    Text.sameWord_congr h, Text.sameWord_congr h, Text.sameWord_congr h]

theorem unquoted?_of_quoted {t : Token} {quote : Char} {content : String}
    (hq : isQuote quote = true)
    (ht : t.text = String.ofList (quote :: (content.toList ++ [quote]))) :
    t.unquoted? = some content := by
  rw [Token.unquoted?, ht, String.toList_ofList, Token.betweenQuotes?, hq]
  simp

/-- The token of a value is read as that value. -/
theorem Value.scalar_of_isWrittenAs {v : Value} {t : Token} (h : v.piece.IsWrittenAs t) :
    t.scalar = v.scalar := by
  cases v with
  | whole i hi =>
    have ht : t.text = Decimal.natText i.toInt.toNat := h
    have hnat : ((i.toInt.toNat : Nat) : Int) = i.toInt :=
      Int.toNat_of_nonneg (by simpa [Int64.le_iff_toInt_le] using hi)
    rw [Token.scalar, unquoted?_eq_none (ht ▸ Piece.isWord_natText _)]
    simp only
    rw [ht, Token.wordScalar, Decimal.natText, String.toList_ofList, Decimal.natural?_digits]
    simp only
    rw [hnat, Scalar.ofWhole_toInt]
    rfl
  | bool b =>
    cases b
    · exact scalar_of_isWord ⟨by decide, by decide⟩ h
    · exact scalar_of_isWord ⟨by decide, by decide⟩ h
  | null => exact scalar_of_isWord ⟨by decide, by decide⟩ h
  | quoted quote content hq _ =>
    rw [Token.scalar, unquoted?_of_quoted hq h]
    rfl
  | word name hname =>
    have ht : t.text = name.text := h
    rw [Token.scalar, unquoted?_eq_none (ht ▸ name.isWord)]
    have hconstant := hname.not_constant
    simp only [List.forall_mem_cons] at hconstant
    simp only
    rw [ht, Token.wordScalar, natural?_eq_none hname.not_digits,
      decimal?_eq_none hname.not_decimal]
    simp only [hconstant.1, hconstant.2.1, hconstant.2.2.1, Bool.false_eq_true, if_false]
    rfl

end Sql
end DocumentSql
