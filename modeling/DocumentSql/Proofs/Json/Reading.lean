/-
# What is written as JSON is read back

A value whose integers fit 64 bits and whose objects name no member twice
(`Json.IsLegible`) is read from its compact and from its spread text, with each
double as the text of the double is read (`Json.reread`). Without doubles the
value is read back as it is (`Json.IsPlain`). Both texts write the same tokens
(`Json.tokensOf`), with blanks between them in the spread text (`Json.Writes`),
and the machine that reads values gets from these tokens to the value, whatever
is open around it (`Json.run?_tokensOf`).

Key definitions: `Json.IsPlain`, `Json.IsLegible`, `Json.reread`, `Json.tokensOf`,
`Json.Writes`.
Key theorems: `Json.exists_word?_jsonChars`, `Json.run?_tokensOf`,
`Json.document?_reread`, `Json.document?_compact`, `Json.document?_spread`.
-/
import DocumentSql.Json.Reader
import DocumentSql.Json.Writer
import DocumentSql.Proofs.Json.Numbers
import DocumentSql.Proofs.OrderedMap

namespace DocumentSql
namespace Json

/-! ### Strings -/

theorem hexValue?_hexChar : ∀ {n : Nat}, n < 16 → Text.hexValue? (hexChar n) = some n := by
  decide

theorem scanString_backslash {c : Char} {n : Nat} (h : escaped? c = some n) (rest : List Char) :
    scanString ('\\' :: c :: rest) =
      (scanString rest).map fun (codes, after) => (n :: codes, after) := by
  have hu : c ≠ 'u' := by
    rintro rfl
    have hnone : escaped? 'u' = none := by decide
    rw [hnone] at h
    cases h
  rw [scanString.eq_def]
  split
  · rename_i he
    cases he
  · rename_i he
    exact absurd (List.cons.inj he).1 (by decide)
  · rename_i he
    exact absurd (List.cons.inj (List.cons.inj he).2).1 hu
  · rename_i he
    obtain ⟨rfl, rfl⟩ := List.cons.inj (List.cons.inj he).2
    rw [h]
    cases scanString rest <;> rfl
  · rename_i hother he
    exact absurd (List.cons.inj he).2.symm (hother c rest (List.cons.inj he).1.symm)

theorem scanString_plain {c : Char} (hquote : c ≠ '"') (hslash : c ≠ '\\')
    (hlow : ¬ c.toNat < 0x20) (rest : List Char) :
    scanString (c :: rest) =
      (scanString rest).map fun (codes, after) => (c.toNat :: codes, after) := by
  rw [scanString.eq_def]
  split
  · rename_i h
    cases h
  · rename_i h
    exact absurd (List.cons.inj h).1 hquote
  · rename_i h
    exact absurd (List.cons.inj h).1 hslash
  · rename_i h
    exact absurd (List.cons.inj h).1 hslash
  · rename_i h
    obtain ⟨rfl, rfl⟩ := List.cons.inj h
    rw [if_neg (by simp [hslash, hlow])]
    cases scanString rest <;> rfl

/-- Two hexadecimal digits behind two zeros write a code below 256. -/
theorem hex4?_hexChars {n : Nat} (h : n < 256) :
    hex4? '0' '0' (hexChar (n / 16)) (hexChar (n % 16)) = some n := by
  have hzero : Text.hexValue? '0' = some 0 := by decide
  have hhigh : Text.hexValue? (hexChar (n / 16)) = some (n / 16) := hexValue?_hexChar (by omega)
  have hrest : Text.hexValue? (hexChar (n % 16)) = some (n % 16) := hexValue?_hexChar (by omega)
  simp only [hex4?, hzero, hhigh, hrest, Option.some.injEq]
  omega

/-- A character that is written in quotes is read as its code point. -/
theorem scanString_escape (c : Char) (rest : List Char) :
    scanString (escape c ++ rest) =
      (scanString rest).map fun (codes, after) => (c.toNat :: codes, after) := by
  unfold escape
  by_cases hquote : c = '"'
  · subst hquote
    exact scanString_backslash rfl rest
  by_cases hslash : c = '\\'
  · subst hslash
    exact scanString_backslash rfl rest
  rw [if_neg hquote, if_neg hslash]
  by_cases h8 : c.toNat = 0x8
  · rw [if_pos h8, h8]
    exact scanString_backslash rfl rest
  by_cases h9 : c.toNat = 0x9
  · rw [if_neg h8, if_pos h9, h9]
    exact scanString_backslash rfl rest
  by_cases hA : c.toNat = 0xA
  · rw [if_neg h8, if_neg h9, if_pos hA, hA]
    exact scanString_backslash rfl rest
  by_cases hC : c.toNat = 0xC
  · rw [if_neg h8, if_neg h9, if_neg hA, if_pos hC, hC]
    exact scanString_backslash rfl rest
  by_cases hD : c.toNat = 0xD
  · rw [if_neg h8, if_neg h9, if_neg hA, if_neg hC, if_pos hD, hD]
    exact scanString_backslash rfl rest
  rw [if_neg h8, if_neg h9, if_neg hA, if_neg hC, if_neg hD]
  by_cases hlow : c.toNat < 0x20
  · rw [if_pos hlow]
    have hcode := hex4?_hexChars (show c.toNat < 256 by omega)
    cases hs : scanString rest <;> simp [scanString, hs, hcode]
  · rw [if_neg hlow, List.singleton_append, scanString_plain hquote hslash hlow]

/-- A text in quotes is read up to its closing quote. -/
theorem scanString_quoted (cs rest : List Char) :
    scanString (cs.flatMap escape ++ '"' :: rest) = some (cs.map Char.toNat, rest) := by
  induction cs with
  | nil => rfl
  | cons c cs ih =>
    rw [List.flatMap_cons, List.append_assoc, scanString_escape, ih]
    rfl

/-- No character is half of a surrogate pair. -/
theorem decodePairs_map_toNat : ∀ cs : List Char, decodePairs (cs.map Char.toNat) = some cs
  | [] => rfl
  | c :: cs => by
    have hvalid : c.toNat < 0xD800 ∨ (0xDFFF < c.toNat ∧ c.toNat < 0x110000) := c.valid
    have hhigh : ¬(0xD800 ≤ c.toNat ∧ c.toNat < 0xDC00) := by omega
    have hlow : ¬(0xDC00 ≤ c.toNat ∧ c.toNat < 0xE000) := by omega
    rw [List.map_cons, decodePairs.eq_def]
    simp only [Bool.and_eq_true, decide_eq_true_iff, if_neg hhigh, if_neg hlow,
      decodePairs_map_toNat cs, Char.ofNat_toNat, Option.map_some]

theorem textOf?_map_toNat (s : String) : textOf? (s.toList.map Char.toNat) = some s := by
  rw [textOf?, decodePairs_map_toNat, Option.map_some, String.ofList_toList]

/-! ### Tokens -/

/-- The characters do not go on with a bare word. -/
def EndsWord (cs : List Char) : Prop := ∀ c ∈ cs.head?, isWordChar c = false

theorem endsWord_cons {c : Char} (h : isWordChar c = false) (cs : List Char) :
    EndsWord (c :: cs) := by
  intro d hd
  obtain rfl := Option.some.inj hd
  exact h

/-- Characters that write tokens, with blanks between them. -/
inductive Writes : List Token → List Char → Prop
  | nil : Writes [] []
  | space {c : Char} {ts : List Token} {cs : List Char} (isSpace : isSpace c = true)
      (rest : Writes ts cs) : Writes ts (c :: cs)
  | mark {c : Char} {t : Token} {ts : List Token} {cs : List Char}
      (isMark : punctuation? c = some t) (rest : Writes ts cs) : Writes (t :: ts) (c :: cs)
  | string (s : String) {ts : List Token} {cs : List Char} (rest : Writes ts cs) :
      Writes (.string (some s) :: ts) (quoted s ++ cs)
  | word {w : List Char} {v : Json} {ts : List Token} {cs : List Char} (reads : word? w = some v)
      (ne_nil : w ≠ []) (wordChars : ∀ c ∈ w, isWordChar c = true) (ends : EndsWord cs)
      (rest : Writes ts cs) : Writes (.leaf v :: ts) (w ++ cs)

theorem tokens?_space {c : Char} (h : isSpace c = true) (cs : List Char) :
    tokens? (c :: cs) = tokens? cs := by
  rw [tokens?, if_pos h]

theorem isSpace_of_punctuation? {c : Char} {t : Token} (h : punctuation? c = some t) :
    isSpace c = false := by
  by_contra hspace
  simp only [isSpace, Bool.not_eq_false, Bool.or_eq_true, decide_eq_true_iff] at hspace
  rcases hspace with ((rfl | rfl) | rfl) | rfl <;> exact absurd h nofun

theorem tokens?_mark {c : Char} {t : Token} (h : punctuation? c = some t) (cs : List Char) :
    tokens? (c :: cs) = (tokens? cs).map (t :: ·) := by
  rw [tokens?, if_neg (by simp [isSpace_of_punctuation? h]), h]

theorem tokens?_string (s : String) (cs : List Char) :
    tokens? (quoted s ++ cs) = (tokens? cs).map (.string (some s) :: ·) := by
  have hchars : quoted s ++ cs = '"' :: (s.toList.flatMap escape ++ '"' :: cs) := by
    simp [quoted]
  have hscan := scanString_quoted s.toList cs
  rw [hchars, tokens?, if_neg (by decide)]
  have hmark : punctuation? '"' = none := rfl
  rw [hmark]
  simp only [if_true]
  split
  · rename_i codes after h
    rw [hscan] at h
    obtain ⟨rfl, rfl⟩ := Prod.mk.inj (Option.some.inj h)
    rw [textOf?_map_toNat]
  · rename_i h
    rw [hscan] at h
    cases h

theorem tokens?_word {w : List Char} {v : Json} (hv : word? w = some v) (hne : w ≠ [])
    (hw : ∀ c ∈ w, isWordChar c = true) {cs : List Char} (hcs : EndsWord cs) :
    tokens? (w ++ cs) = (tokens? cs).map (.leaf v :: ·) := by
  obtain ⟨c, w, rfl⟩ := List.exists_cons_of_ne_nil hne
  obtain ⟨hc, hw⟩ := List.forall_mem_cons.mp hw
  simp only [isWordChar, Bool.and_eq_true, Bool.not_eq_true', Option.isNone_iff_eq_none,
    bne_iff_ne] at hc
  obtain ⟨⟨hspace, hmark⟩, hquote⟩ := hc
  obtain ⟨htake, hdrop⟩ := takeWhile_append_of_ends hw hcs
  rw [List.cons_append, tokens?, if_neg (by simp [hspace]), hmark]
  simp only [if_neg hquote, htake, hdrop, hv]

/-- The tokens that are written are read. -/
theorem tokens?_of_writes {ts : List Token} {cs : List Char} (h : Writes ts cs) :
    tokens? cs = some ts := by
  induction h with
  | nil => rw [tokens?]
  | space hspace _ ih => rw [tokens?_space hspace, ih]
  | mark hmark _ ih => rw [tokens?_mark hmark, ih, Option.map_some]
  | string s _ ih => rw [tokens?_string, ih, Option.map_some]
  | word hv hne hw hends _ ih => rw [tokens?_word hv hne hw hends, ih, Option.map_some]

/-! ### The tokens of a value -/

mutual

/-- The tokens that a value is written with. -/
def tokensOf : Json → List Token
  | .arr items => .openArray :: (itemTokens items ++ [.closeArray])
  | .obj members => .openObject :: (memberTokens members ++ [.closeObject])
  | .str s => [.string (some s)]
  | v => [.leaf v]

/-- The tokens of items, with commas between them. -/
def itemTokens : List Json → List Token
  | [] => []
  | [v] => tokensOf v
  | v :: rest => tokensOf v ++ .comma :: itemTokens rest

/-- The tokens of members, with commas between them. -/
def memberTokens : List (String × Json) → List Token
  | [] => []
  | [(name, v)] => .string (some name) :: .colon :: tokensOf v
  | (name, v) :: rest =>
    .string (some name) :: .colon :: (tokensOf v ++ .comma :: memberTokens rest)

end

/-- A value that is the same when it is read back: it has no doubles, its integers are readable, and
no object names a member twice. -/
inductive IsPlain : Json → Prop
  | null : IsPlain .null
  | bool (b : Bool) : IsPlain (.bool b)
  | int {i : Int} (isReadable : IsReadable i) : IsPlain (.int i)
  | str (s : String) : IsPlain (.str s)
  | arr {items : List Json} (plain : ∀ v ∈ items, IsPlain v) : IsPlain (.arr items)
  | obj {members : List (String × Json)} (nodup : (members.map Prod.fst).Nodup)
      (plain : ∀ m ∈ members, IsPlain m.2) : IsPlain (.obj members)

/-- A value that can be read back, doubles included. -/
inductive IsLegible : Json → Prop
  | null : IsLegible .null
  | bool (b : Bool) : IsLegible (.bool b)
  | int {i : Int} (isReadable : IsReadable i) : IsLegible (.int i)
  | float (x : Binary64) : IsLegible (.float x)
  | str (s : String) : IsLegible (.str s)
  | arr {items : List Json} (legible : ∀ v ∈ items, IsLegible v) : IsLegible (.arr items)
  | obj {members : List (String × Json)} (nodup : (members.map Prod.fst).Nodup)
      (legible : ∀ m ∈ members, IsLegible m.2) : IsLegible (.obj members)

theorem IsPlain.isLegible {v : Json} (h : IsPlain v) : IsLegible v := by
  induction h with
  | null => exact .null
  | bool b => exact .bool b
  | int hreadable => exact .int hreadable
  | str s => exact .str s
  | arr _ ih => exact .arr ih
  | obj nodup _ ih => exact .obj nodup ih

mutual

/-- The value with each double as its text is read. -/
def reread : Json → Json
  | .float x => (word? x.jsonChars).getD .unreadable
  | .arr items => .arr (rereadItems items)
  | .obj members => .obj (rereadMembers members)
  | v => v

/-- `reread` on each item. -/
def rereadItems : List Json → List Json
  | [] => []
  | v :: rest => reread v :: rereadItems rest

/-- `reread` on each value. -/
def rereadMembers : List (String × Json) → List (String × Json)
  | [] => []
  | (name, v) :: rest => (name, reread v) :: rereadMembers rest

end

theorem rereadItems_eq_map : ∀ items : List Json, rereadItems items = items.map reread
  | [] => rfl
  | v :: rest => by rw [rereadItems, rereadItems_eq_map rest, List.map_cons]

theorem rereadMembers_eq_map : ∀ members : List (String × Json),
    rereadMembers members = members.map fun m => (m.1, m.2.reread)
  | [] => rfl
  | (name, v) :: rest => by rw [rereadMembers, rereadMembers_eq_map rest, List.map_cons]

/-- Without doubles a value is read back as it is. -/
theorem IsPlain.reread_eq {v : Json} (h : IsPlain v) : v.reread = v := by
  induction h with
  | null | bool | int | str => rfl
  | arr _ ih =>
    rw [reread, rereadItems_eq_map, List.map_congr_left ih, List.map_id']
  | obj _ _ ih =>
    rw [reread, rereadMembers_eq_map]
    congr 1
    exact (List.map_congr_left fun m hm => by rw [ih m hm]).trans (List.map_id' _)

theorem isWordChar_of_notMem {c : Char}
    (h : c ∉ [' ', '\t', '\n', '\r', '[', ']', '\x7b', '\x7d', ':', ',', '"']) :
    isWordChar c = true := by
  simp only [List.mem_cons, List.not_mem_nil, or_false, not_or] at h
  simp [isWordChar, isSpace, punctuation?, h]

/-- Whether a number can be written with a character. -/
def isNumeralChar (c : Char) : Bool := Decimal.isDigit c || ['-', '+', '.', 'e'].contains c

/-- Characters that numbers are written with. -/
def IsNumeral (cs : List Char) : Prop := ∀ c ∈ cs, isNumeralChar c = true

/-- A numeral has no other characters. -/
theorem IsNumeral.notMem {cs : List Char} (h : IsNumeral cs) {others : List Char}
    (hothers : others.all (fun d => !isNumeralChar d) = true) {c : Char} (hc : c ∈ cs) :
    c ∉ others := by
  intro hmem
  have hnone := List.all_eq_true.mp hothers c hmem
  rw [h c hc] at hnone
  cases hnone

theorem IsNumeral.cons {c : Char} {cs : List Char} (h : IsNumeral cs)
    (hc : isNumeralChar c = true) : IsNumeral (c :: cs) := List.forall_mem_cons.mpr ⟨hc, h⟩

theorem IsNumeral.isWordChar {cs : List Char} (h : IsNumeral cs) :
    ∀ c ∈ cs, isWordChar c = true :=
  fun _ hc => isWordChar_of_notMem (h.notMem rfl hc)

/-- A numeral is none of the other words. -/
theorem IsNumeral.word?_eq {cs : List Char} (h : IsNumeral cs) (hne : cs ≠ []) :
    word? cs = number? cs := by
  obtain ⟨c, cs, rfl⟩ := List.exists_cons_of_ne_nil hne
  have hfirst : c ∉ ['n', 't', 'f'] := h.notMem rfl List.mem_cons_self
  simp only [List.mem_cons, List.not_mem_nil, or_false, not_or] at hfirst
  unfold word?
  rw [if_neg fun he => hfirst.1 (List.cons.inj he).1,
    if_neg fun he => hfirst.2.1 (List.cons.inj he).1,
    if_neg fun he => hfirst.2.2 (List.cons.inj he).1]

theorem isNumeral_digits (n : Nat) : IsNumeral (Decimal.digits n) := by
  intro c hc
  rw [isNumeralChar, Decimal.isDigit_of_mem_digits hc, Bool.true_or]

theorem IsNumeral.append {cs ds : List Char} (h : IsNumeral cs) (h' : IsNumeral ds) :
    IsNumeral (cs ++ ds) := List.forall_mem_append.mpr ⟨h, h'⟩

theorem isNumeral_intChars (i : Int) : IsNumeral (Decimal.intChars i) := by
  unfold Decimal.intChars
  split
  · exact (isNumeral_digits _).cons (by decide)
  · exact isNumeral_digits _

theorem intChars_ne_nil (i : Int) : Decimal.intChars i ≠ [] := by
  unfold Decimal.intChars
  split
  · exact List.cons_ne_nil _ _
  · exact Decimal.digits_ne_nil _

/-- A finite double is written as a numeral. -/
theorem isNumeral_jsonChars (negative : Bool) {m : Magnitude} (h : m ≠ .infinity) :
    IsNumeral (Binary64.jsonChars (.signed negative m)) := by
  have hnil : IsNumeral [] := List.forall_mem_nil _
  have hzeros : ∀ n, IsNumeral (List.replicate n '0') := by
    intro n c hc
    rw [List.eq_of_mem_replicate hc]
    decide
  have hdigits := isNumeral_digits (shortest .toEven m).significand
  have htake : ∀ n, IsNumeral ((Decimal.digits (shortest .toEven m).significand).take n) :=
    fun n c hc => hdigits c (List.mem_of_mem_take hc)
  have hdrop : ∀ n, IsNumeral ((Decimal.digits (shortest .toEven m).significand).drop n) :=
    fun n c hc => hdigits c (List.mem_of_mem_drop hc)
  rw [Binary64.jsonChars, if_neg h]
  refine IsNumeral.append ?_ ?_
  · cases negative with
    | true => exact hnil.cons (by decide)
    | false => exact hnil
  split
  · exact ((hzeros 1).cons (by decide)).cons (by decide)
  simp only
  split
  · unfold Binary64.positional
    simp only
    split
    · exact (hdigits.append (hzeros _)).append ((hzeros 1).cons (by decide))
    · split
      · exact (htake _).append ((hdrop _).cons (by decide))
      · exact (((hzeros _).cons (by decide)).cons (by decide)).append hdigits
  · unfold Binary64.scientific
    refine IsNumeral.append ((htake _).append ?_)
      (((isNumeral_digits _).cons (by split <;> decide)).cons (by decide))
    split
    · exact hnil
    · exact (hdrop _).cons (by decide)

/-- A double is written as the word `null` or as a numeral. -/
theorem jsonChars_cases (x : Binary64) : x.jsonChars = ['n', 'u', 'l', 'l'] ∨
    (IsNumeral x.jsonChars ∧ x.jsonChars ≠ [] ∧ ∃ y, number? x.jsonChars = some (.float y)) := by
  cases x with
  | nan => exact .inl rfl
  | signed negative m =>
    by_cases h : m = .infinity
    · exact .inl (by rw [Binary64.jsonChars, if_pos h])
    · obtain ⟨y, hy⟩ := exists_number?_finite negative h
      refine .inr ⟨isNumeral_jsonChars negative h, fun hnil => ?_, y, hy⟩
      rw [hnil] at hy
      cases hy

/-- The word of a double is read as a double, or as null. -/
theorem word?_jsonChars (x : Binary64) : word? x.jsonChars = some (reread (.float x)) ∧
    (reread (.float x) = .null ∨ (reread (.float x)).IsFloat) := by
  rcases jsonChars_cases x with hnull | ⟨hnumeral, hne, y, hy⟩
  · rw [reread, hnull]
    exact ⟨rfl, .inl rfl⟩
  · rw [reread, hnumeral.word?_eq hne, hy]
    exact ⟨rfl, .inr ⟨y, rfl⟩⟩

theorem isWordChar_of_mem_jsonChars {x : Binary64} : ∀ c ∈ x.jsonChars, isWordChar c = true := by
  rcases jsonChars_cases x with hnull | ⟨hnumeral, -⟩
  · rw [hnull]
    exact List.all_eq_true.mp rfl
  · exact hnumeral.isWordChar

theorem jsonChars_ne_nil (x : Binary64) : x.jsonChars ≠ [] := by
  rcases jsonChars_cases x with hnull | ⟨-, hne, -⟩
  · rw [hnull]
    exact List.cons_ne_nil _ _
  · exact hne

/-- A value that is no container writes its token. -/
theorem writes_leaf {v : Json} (hv : IsLegible v) (hleaf : v.depth = 0) {ts : List Token}
    {cs : List Char} (hends : EndsWord cs) (h : Writes ts cs) :
    Writes (tokensOf v.reread ++ ts) (leafChars v ++ cs) := by
  cases hv with
  | null => exact .word rfl (List.cons_ne_nil _ _) (List.all_eq_true.mp rfl) hends h
  | bool b =>
    cases b <;> exact .word rfl (List.cons_ne_nil _ _) (List.all_eq_true.mp rfl) hends h
  | @int i hreadable =>
    have hread : word? (Decimal.intChars i) = some (.int i) :=
      ((isNumeral_intChars i).word?_eq (intChars_ne_nil i)).trans (number?_intChars hreadable)
    exact .word hread (intChars_ne_nil i) (isNumeral_intChars i).isWordChar hends h
  | float x =>
    obtain ⟨hread, hkind⟩ := word?_jsonChars x
    have htoken : tokensOf (reread (.float x)) = [.leaf (reread (.float x))] := by
      rcases hkind with hnull | ⟨y, hy⟩
      · rw [hnull]
        rfl
      · rw [hy]
        rfl
    rw [htoken]
    exact .word hread (jsonChars_ne_nil x) isWordChar_of_mem_jsonChars hends h
  | str s => exact .string s h
  | arr => simp [depth] at hleaf
  | obj => simp [depth] at hleaf

/-! ### The compact text -/

theorem endsWord_comma (cs : List Char) : EndsWord (',' :: cs) := endsWord_cons rfl cs

mutual

theorem writes_compactChars : ∀ {v : Json}, IsLegible v → ∀ {ts : List Token} {cs : List Char},
    EndsWord cs → Writes ts cs → Writes (tokensOf v.reread ++ ts) (compactChars v ++ cs)
  | .null, hv, _, _, hends, h => writes_leaf hv rfl hends h
  | .bool _, hv, _, _, hends, h => writes_leaf hv rfl hends h
  | .int _, hv, _, _, hends, h => writes_leaf hv rfl hends h
  | .float _, hv, _, _, hends, h => writes_leaf hv rfl hends h
  | .str _, hv, _, _, hends, h => writes_leaf hv rfl hends h
  | .arr items, hv, ts, cs, _, h => by
    cases hv with
    | arr legible =>
      have hclose : Writes (.closeArray :: ts) (']' :: cs) := .mark rfl h
      have hitems := writes_compactItems legible (endsWord_cons rfl cs) hclose
      rw [reread, tokensOf, compactChars]
      simpa using Writes.mark (c := '[') rfl hitems
  | .obj members, hv, ts, cs, _, h => by
    cases hv with
    | obj _ legible =>
      have hclose : Writes (.closeObject :: ts) ('\x7d' :: cs) := .mark rfl h
      have hmembers := writes_compactMembers legible (endsWord_cons rfl cs) hclose
      rw [reread, tokensOf, compactChars]
      simpa using Writes.mark (c := '\x7b') rfl hmembers

theorem writes_compactItems : ∀ {items : List Json}, (∀ v ∈ items, IsLegible v) →
    ∀ {ts : List Token} {cs : List Char}, EndsWord cs → Writes ts cs →
      Writes (itemTokens (rereadItems items) ++ ts) (compactItems items ++ cs)
  | [], _, _, _, _, h => h
  | [v], hv, _, _, hends, h => by
    rw [rereadItems, rereadItems, itemTokens, compactItems]
    exact writes_compactChars (hv v List.mem_cons_self) hends h
  | v :: w :: rest, hv, ts, cs, hends, h => by
    obtain ⟨hfirst, hrest⟩ := List.forall_mem_cons.mp hv
    have hlater := writes_compactItems hrest hends h
    have hcomma : Writes (.comma :: (itemTokens (rereadItems (w :: rest)) ++ ts))
        (',' :: (compactItems (w :: rest) ++ cs)) := .mark rfl hlater
    rw [rereadItems, rereadItems, itemTokens, ← rereadItems, compactItems, List.append_assoc,
      List.append_assoc]
    exact writes_compactChars hfirst (endsWord_comma _) hcomma
    all_goals exact List.cons_ne_nil _ _

theorem writes_compactMembers : ∀ {members : List (String × Json)},
    (∀ m ∈ members, IsLegible m.2) → ∀ {ts : List Token} {cs : List Char}, EndsWord cs →
      Writes ts cs → Writes (memberTokens (rereadMembers members) ++ ts) (compactMembers members ++ cs)
  | [], _, _, _, _, h => h
  | [(name, v)], hv, ts, cs, hends, h => by
    have hvalue := writes_compactChars (hv _ List.mem_cons_self) hends h
    have hcolon : Writes (.colon :: (tokensOf v.reread ++ ts)) (':' :: (compactChars v ++ cs)) :=
      .mark rfl hvalue
    rw [rereadMembers, rereadMembers, memberTokens, compactMembers, List.append_assoc]
    exact .string name hcolon
  | (name, v) :: w :: rest, hv, ts, cs, hends, h => by
    obtain ⟨hfirst, hrest⟩ := List.forall_mem_cons.mp hv
    have hlater := writes_compactMembers hrest hends h
    have hcomma : Writes (.comma :: (memberTokens (rereadMembers (w :: rest)) ++ ts))
        (',' :: (compactMembers (w :: rest) ++ cs)) := .mark rfl hlater
    have hvalue := writes_compactChars hfirst (endsWord_comma _) hcomma
    have hcolon := Writes.mark (c := ':') rfl hvalue
    rw [rereadMembers, rereadMembers, memberTokens, ← rereadMembers, compactMembers]
    simpa using Writes.string name hcolon
    all_goals exact List.cons_ne_nil _ _

end

/-! ### The spread text -/

theorem writes_newline (level : Nat) {ts : List Token} {cs : List Char} (h : Writes ts cs) :
    Writes ts (newline level ++ cs) := by
  have hblanks : ∀ n, Writes ts (List.replicate n ' ' ++ cs) := by
    intro n
    induction n with
    | zero => exact h
    | succ n ih => exact .space rfl ih
  exact .space rfl (hblanks _)

theorem endsWord_newline (level : Nat) (cs : List Char) : EndsWord (newline level ++ cs) :=
  endsWord_cons rfl _

mutual

theorem writes_spreadChars : ∀ {v : Json}, IsLegible v → ∀ (level : Nat) {ts : List Token}
    {cs : List Char}, EndsWord cs → Writes ts cs →
      Writes (tokensOf v.reread ++ ts) (spreadChars level v ++ cs)
  | .null, hv, _, _, _, hends, h => writes_leaf hv rfl hends h
  | .bool _, hv, _, _, _, hends, h => writes_leaf hv rfl hends h
  | .int _, hv, _, _, _, hends, h => writes_leaf hv rfl hends h
  | .float _, hv, _, _, _, hends, h => writes_leaf hv rfl hends h
  | .str _, hv, _, _, _, hends, h => writes_leaf hv rfl hends h
  | .arr [], _, _, _, _, _, h => .mark rfl (.mark rfl h)
  | .obj [], _, _, _, _, _, h => .mark rfl (.mark rfl h)
  | .arr (v :: rest), hv, level, ts, cs, _, h => by
    cases hv with
    | arr legible =>
      have hclose : Writes (.closeArray :: ts) (']' :: cs) := .mark rfl h
      have hitems := writes_spreadItems legible (level + 1) (endsWord_newline level _)
        (writes_newline level hclose)
      rw [reread, tokensOf, spreadChars]
      simpa using Writes.mark (c := '[') rfl hitems
  | .obj (m :: rest), hv, level, ts, cs, _, h => by
    cases hv with
    | obj _ legible =>
      have hclose : Writes (.closeObject :: ts) ('\x7d' :: cs) := .mark rfl h
      have hmembers := writes_spreadMembers legible (level + 1) (endsWord_newline level _)
        (writes_newline level hclose)
      rw [reread, tokensOf, spreadChars]
      simpa using Writes.mark (c := '\x7b') rfl hmembers

theorem writes_spreadItems : ∀ {items : List Json}, (∀ v ∈ items, IsLegible v) → ∀ (level : Nat)
    {ts : List Token} {cs : List Char}, EndsWord cs → Writes ts cs →
      Writes (itemTokens (rereadItems items) ++ ts) (spreadItems level items ++ cs)
  | [], _, _, _, _, _, h => h
  | [v], hv, level, _, _, hends, h => by
    rw [rereadItems, rereadItems, itemTokens, spreadItems, List.append_assoc]
    exact writes_newline level (writes_spreadChars (hv v List.mem_cons_self) level hends h)
  | v :: w :: rest, hv, level, ts, cs, hends, h => by
    obtain ⟨hfirst, hrest⟩ := List.forall_mem_cons.mp hv
    have hlater := writes_spreadItems hrest level hends h
    have hcomma : Writes (.comma :: (itemTokens (rereadItems (w :: rest)) ++ ts))
        (',' :: (spreadItems level (w :: rest) ++ cs)) := .mark rfl hlater
    have hvalue := writes_spreadChars hfirst level (endsWord_comma _) hcomma
    rw [rereadItems, rereadItems, itemTokens, ← rereadItems, spreadItems]
    simpa using writes_newline level hvalue
    all_goals exact List.cons_ne_nil _ _

theorem writes_spreadMembers : ∀ {members : List (String × Json)},
    (∀ m ∈ members, IsLegible m.2) → ∀ (level : Nat) {ts : List Token} {cs : List Char},
      EndsWord cs → Writes ts cs →
        Writes (memberTokens (rereadMembers members) ++ ts) (spreadMembers level members ++ cs)
  | [], _, _, _, _, _, h => h
  | [(name, v)], hv, level, ts, cs, hends, h => by
    have hvalue := writes_spreadChars (hv _ List.mem_cons_self) level hends h
    have hcolon : Writes (.colon :: (tokensOf v.reread ++ ts))
        (':' :: ' ' :: (spreadChars level v ++ cs)) := .mark rfl (.space rfl hvalue)
    rw [rereadMembers, rereadMembers, memberTokens, spreadMembers]
    simpa using writes_newline level (.string name hcolon)
  | (name, v) :: w :: rest, hv, level, ts, cs, hends, h => by
    obtain ⟨hfirst, hrest⟩ := List.forall_mem_cons.mp hv
    have hlater := writes_spreadMembers hrest level hends h
    have hcomma : Writes (.comma :: (memberTokens (rereadMembers (w :: rest)) ++ ts))
        (',' :: (spreadMembers level (w :: rest) ++ cs)) := .mark rfl hlater
    have hvalue := writes_spreadChars hfirst level (endsWord_comma _) hcomma
    have hcolon := Writes.mark (c := ':') rfl (Writes.space (c := ' ') rfl hvalue)
    rw [rereadMembers, rereadMembers, memberTokens, ← rereadMembers, spreadMembers]
    simpa using writes_newline level (.string name hcolon)
    all_goals exact List.cons_ne_nil _ _

end

/-! ### From tokens to values -/

theorem run?_append : ∀ (s : State) (ts us : List Token),
    s.run? (ts ++ us) = (s.run? ts).bind (·.run? us)
  | _, [], _ => rfl
  | s, t :: ts, us => by
    rw [List.cons_append, State.run?, State.run?]
    cases s.step? t with
    | none => rfl
    | some s => exact run?_append s ts us

/-- The tokens of a value do not begin with a close. -/
theorem exists_tokensOf (v : Json) : ∃ t ts, tokensOf v = t :: ts ∧ t ≠ .closeArray := by
  cases v <;> simp [tokensOf]

theorem exists_itemTokens (v : Json) (rest : List Json) :
    ∃ t ts, itemTokens (v :: rest) = t :: ts ∧ t ≠ .closeArray := by
  obtain ⟨t, ts, hts, ht⟩ := exists_tokensOf v
  cases rest with
  | nil => exact ⟨t, ts, by rw [itemTokens, hts], ht⟩
  | cons w rest => exact ⟨t, _, by rw [itemTokens, hts, List.cons_append]; nofun, ht⟩

/-- The first item of an array is read as any other. -/
theorem run?_firstItem (open_ : List Frame) {t : Token} (ht : t ≠ .closeArray)
    (ts : List Token) : (State.firstItem open_).run? (t :: ts) =
      (State.value (.array [] :: open_)).run? (t :: ts) := by
  have hstep : (State.firstItem open_).step? t = (State.value (.array [] :: open_)).step? t := by
    cases t <;> first | rfl | exact absurd rfl ht
  rw [State.run?, State.run?, hstep]

/-- A member with its name. -/
def named (m : String × Json) : NamedValue := (some m.1, m.2)

/-- Members that all have names are an object. -/
theorem ofNamed_map_named (members : List (String × Json)) :
    ofNamed (members.map named) = .obj members := by
  have hall : (members.map named).mapM (fun m => m.1.map fun key => (key, m.2)) =
      some members := by
    induction members with
    | nil => rfl
    | cons m members ih =>
      rw [List.map_cons, List.mapM_cons, ih]
      rfl
  rw [ofNamed, hall]

mutual

/-- The tokens of a value lead to the value. -/
theorem run?_tokensOf : ∀ (v : Json) (open_ : List Frame),
    (State.value open_).run? (tokensOf v) = some (.done v open_)
  | .null, _ => rfl
  | .bool _, _ => rfl
  | .int _, _ => rfl
  | .float _, _ => rfl
  | .str _, _ => rfl
  | .unreadable, _ => rfl
  | .arr [], _ => rfl
  | .obj [], _ => rfl
  | .arr (v :: rest), open_ => by
    have hitems := run?_itemTokens (v :: rest) (List.cons_ne_nil _ _) [] open_
    obtain ⟨t, ts, hts, ht⟩ := exists_itemTokens v rest
    rw [hts, List.cons_append, ← run?_firstItem open_ ht] at hitems
    rw [tokensOf, hts]
    exact hitems
  | .obj (m :: rest), open_ => by
    have hmembers := run?_memberTokens (m :: rest) (List.cons_ne_nil _ _) [] open_
    rw [List.reverse_nil, List.nil_append, ofNamed_map_named] at hmembers
    rw [← hmembers, tokensOf]
    cases rest <;> rw [memberTokens] <;> first | rfl | nofun

/-- The items that are left complete the array. -/
theorem run?_itemTokens : ∀ (items : List Json), items ≠ [] → ∀ (before : List Json)
    (open_ : List Frame),
    (State.value (.array before :: open_)).run? (itemTokens items ++ [.closeArray]) =
      some (.done (.arr (before.reverse ++ items)) open_)
  | [], h, _, _ => absurd rfl h
  | [v], _, before, open_ => by
    rw [itemTokens, run?_append, run?_tokensOf v]
    simp [State.run?, State.step?]
  | v :: w :: rest, _, before, open_ => by
    have hrest := run?_itemTokens (w :: rest) (List.cons_ne_nil _ _) (v :: before) open_
    rw [List.reverse_cons, List.append_assoc, List.singleton_append] at hrest
    rw [itemTokens, List.append_assoc, run?_append, run?_tokensOf v, ← hrest]
    · rfl
    · exact List.cons_ne_nil _ _

/-- The members that are left complete the object. -/
theorem run?_memberTokens : ∀ (members : List (String × Json)), members ≠ [] →
    ∀ (before : List NamedValue) (open_ : List Frame),
    (State.name before open_).run? (memberTokens members ++ [.closeObject]) =
      some (.done (ofNamed (before.reverse ++ members.map named)) open_)
  | [], h, _, _ => absurd rfl h
  | [(name, v)], _, before, open_ => by
    have hvalue := run?_tokensOf v (.object before (some name) :: open_)
    have hname : (State.name before open_).run? (.string (some name) :: .colon ::
        (tokensOf v ++ [.closeObject])) =
          (State.value (.object before (some name) :: open_)).run?
            (tokensOf v ++ [.closeObject]) := rfl
    rw [memberTokens, List.cons_append, List.cons_append, hname, run?_append, hvalue]
    simp [State.run?, State.step?, named]
  | (name, v) :: w :: rest, _, before, open_ => by
    have hvalue := run?_tokensOf v (.object before (some name) :: open_)
    have hrest := run?_memberTokens (w :: rest) (List.cons_ne_nil _ _)
      ((some name, v) :: before) open_
    have hname : ∀ us, (State.name before open_).run? (.string (some name) :: .colon ::
        (tokensOf v ++ us)) =
          (State.value (.object before (some name) :: open_)).run? (tokensOf v ++ us) :=
      fun _ => rfl
    rw [List.reverse_cons, List.append_assoc, List.singleton_append] at hrest
    have hlist : (before.reverse ++ ((name, v) :: w :: rest).map named) =
        before.reverse ++ (some name, v) :: (w :: rest).map named := rfl
    rw [memberTokens, List.cons_append, List.cons_append, List.append_assoc, hname, run?_append,
      hvalue, hlist, ← hrest]
    · rfl
    · exact List.cons_ne_nil _ _

end

/-! ### Whole documents -/

theorem map_fst_rereadMembers (members : List (String × Json)) :
    (rereadMembers members).map Prod.fst = members.map Prod.fst := by
  rw [rereadMembers_eq_map, List.map_map]
  rfl

mutual

/-- No name has to be merged. -/
theorem mergeNames_eq : ∀ {v : Json}, IsLegible v → v.reread.mergeNames = some v.reread
  | .null, _ => rfl
  | .bool _, _ => rfl
  | .int _, _ => rfl
  | .float x, _ => by
    rcases (word?_jsonChars x).2 with hnull | ⟨y, hy⟩
    · rw [hnull, mergeNames]
      all_goals nofun
    · rw [hy, mergeNames]
      all_goals nofun
  | .str _, _ => rfl
  | .arr items, hv => by
    cases hv with
    | arr legible => rw [reread, mergeNames, mergeItems_eq legible, Option.map_some]
  | .obj members, hv => by
    cases hv with
    | obj nodup legible =>
      rw [reread, mergeNames, mergeMembers_eq legible, Option.map_some,
        OrderedMap.entries_ofList (map_fst_rereadMembers members ▸ nodup)]

theorem mergeItems_eq : ∀ {items : List Json}, (∀ v ∈ items, IsLegible v) →
    mergeItems (rereadItems items) = some (rereadItems items)
  | [], _ => rfl
  | v :: rest, h => by
    obtain ⟨hfirst, hrest⟩ := List.forall_mem_cons.mp h
    rw [rereadItems, mergeItems, mergeNames_eq hfirst, mergeItems_eq hrest]

theorem mergeMembers_eq : ∀ {members : List (String × Json)}, (∀ m ∈ members, IsLegible m.2) →
    mergeMembers (rereadMembers members) = some (rereadMembers members)
  | [], _ => rfl
  | (name, v) :: rest, h => by
    obtain ⟨hfirst, hrest⟩ := List.forall_mem_cons.mp h
    rw [rereadMembers, mergeMembers, mergeNames_eq hfirst, mergeMembers_eq hrest]

end

mutual

/-- Doubles are read as leaves. -/
theorem depth_reread : ∀ v : Json, v.reread.depth = v.depth
  | .null => rfl
  | .bool _ => rfl
  | .int _ => rfl
  | .float x => by
    rcases (word?_jsonChars x).2 with hnull | ⟨y, hy⟩
    · rw [hnull]
      rfl
    · rw [hy]
      rfl
  | .str _ => rfl
  | .unreadable => rfl
  | .arr items => by rw [reread, depth, depth, depthItems_reread items]
  | .obj members => by rw [reread, depth, depth, depthMembers_reread members]

theorem depthItems_reread : ∀ items : List Json,
    depthItems (rereadItems items) = depthItems items
  | [] => rfl
  | v :: rest => by rw [rereadItems, depthItems, depthItems, depth_reread v, depthItems_reread rest]

theorem depthMembers_reread : ∀ members : List (String × Json),
    depthMembers (rereadMembers members) = depthMembers members
  | [] => rfl
  | (name, v) :: rest => by
    rw [rereadMembers, depthMembers, depthMembers, depth_reread v, depthMembers_reread rest]

end

/-- A text that writes the tokens of a value is read as the value. -/
theorem document?_of_writes {v : Json} (hv : IsLegible v) (hdepth : v.depth ≤ depthLimit)
    {cs : List Char} (h : Writes (tokensOf v.reread) cs) :
    document? (String.ofList cs) = some v.reread := by
  have htext : ofText? (String.ofList cs) = some v.reread := by
    rw [ofText?, String.toList_ofList, tokens?_of_writes h, Option.bind_some, ofTokens?,
      run?_tokensOf]
  rw [document?, htext, Option.bind_some, normal?, depth_reread, if_pos hdepth, mergeNames_eq hv]

theorem endsWord_nil : EndsWord [] := nofun

/-- A value is read from its compact text, with its doubles as their texts are read. -/
theorem document?_reread {v : Json} (hv : IsLegible v) (hdepth : v.depth ≤ depthLimit) :
    document? v.compact = some v.reread := by
  have hwrites := writes_compactChars hv endsWord_nil .nil
  rw [List.append_nil, List.append_nil] at hwrites
  exact document?_of_writes hv hdepth hwrites

theorem document?_compact {v : Json} (hv : IsPlain v) (hdepth : v.depth ≤ depthLimit) :
    document? v.compact = some v := by
  rw [document?_reread hv.isLegible hdepth, hv.reread_eq]

theorem document?_spread {v : Json} (hv : IsPlain v) (hdepth : v.depth ≤ depthLimit) :
    document? v.spread = some v := by
  have hwrites := writes_spreadChars hv.isLegible 0 endsWord_nil .nil
  rw [List.append_nil, List.append_nil] at hwrites
  exact (document?_of_writes hv.isLegible hdepth hwrites).trans (congrArg some hv.reread_eq)

end Json
end DocumentSql
