/-
# The paths that mean a column

A column without quotes, backslashes and null characters is written in a path
as it is, and its bytes are read as its characters (`CellPath.codes_bytesOf`). So
its path means the cell of that name, as long as no other cell of the row has
the name with a null character and anything behind it (`CellPath.lookup_eq`).

Key definitions: `CellPath.IsPlainName`, `CellPath.IsOnlyName`.
Key theorems: `CellPath.ofColumn?_of_isPlainName`, `CellPath.lookup_eq`.
-/
import DocumentSql.Store.CellPath
import DocumentSql.Proofs.Lists
import DocumentSql.Proofs.OrderedMap

namespace DocumentSql
namespace CellPath

/-! ### The bytes of a character -/

theorem toNat_ofNat {n : Nat} (h : n < 256) : (UInt8.ofNat n).toNat = n := by
  rw [UInt8.toNat_ofNat', Nat.mod_eq_of_lt h]

/-- The bytes do not go on with a character. -/
def StartsFresh (bs : List UInt8) : Prop := ∀ b ∈ bs.head?, isContinuation b = false

theorem readCharacter_append {more : List UInt8} (hmore : ∀ b ∈ more, isContinuation b = true)
    {rest : List UInt8} (hrest : StartsFresh rest) (bits : Nat) :
    readCharacter bits (more ++ rest) =
      (more.foldl (fun code b => code * 64 + b.toNat % 64) bits, rest) := by
  obtain ⟨htake, hdrop⟩ := takeWhile_append_of_ends hmore hrest
  rw [readCharacter, htake, hdrop]

/-- The byte that goes on with a character by the lowest six bits of `n`. -/
theorem isContinuation_ofNat (n : Nat) : isContinuation (UInt8.ofNat (n % 64 + 128)) = true := by
  rw [isContinuation, toNat_ofNat (by omega), beq_iff_eq]
  omega

theorem toNat_continuation (n : Nat) : (UInt8.ofNat (n % 64 + 128)).toNat % 64 = n % 64 := by
  rw [toNat_ofNat (by omega)]
  omega

theorem readPlain_eq (b : UInt8) (rest : List UInt8) :
    readPlain b rest =
      if b.toNat < 0xC0 then (b.toNat, rest)
      else if b.toNat < 0xE0 then readCharacter (b.toNat % 32) rest
      else if b.toNat < 0xF0 then readCharacter (b.toNat % 16) rest
      else readCharacter (b.toNat % 8) rest := by
  simp only [readPlain, UInt8.lt_iff_toNat_lt]
  rfl

/-- A leading byte and bytes that go on with it are read as a character. -/
structure IsLed (c : Char) (lead : UInt8) (more : List UInt8) : Prop where
  bytes_eq : String.utf8EncodeChar c = lead :: more
  lead_ge : 0xC0 ≤ lead.toNat
  continues : ∀ b ∈ more, isContinuation b = true
  read : ∀ rest, StartsFresh rest → readPlain lead (more ++ rest) = (c.toNat, rest)

/-- A character has one byte below 128, or a leading byte and bytes that go on with it. -/
theorem bytes_cases (c : Char) :
    (c.toNat < 0x80 ∧ String.utf8EncodeChar c = [UInt8.ofNat c.toNat]) ∨
      ∃ lead more, IsLed c lead more := by
  have hmax : c.toNat < 0x110000 := by
    have hvalid : c.toNat < 0xD800 ∨ (0xDFFF < c.toNat ∧ c.toNat < 0x110000) := c.valid
    omega
  have hnat : c.val.toNat = c.toNat := rfl
  by_cases h1 : c.toNat ≤ 127
  · exact .inl ⟨by omega, by simp only [String.utf8EncodeChar, hnat, h1, if_true]⟩
  right
  by_cases h2 : c.toNat ≤ 2047
  · have hlead : (UInt8.ofNat (c.toNat / 64 % 32 + 192)).toNat = c.toNat / 64 % 32 + 192 :=
      toNat_ofNat (by omega)
    have hmore : ∀ b ∈ [UInt8.ofNat (c.toNat % 64 + 128)], isContinuation b = true :=
      List.forall_mem_singleton.mpr (isContinuation_ofNat _)
    refine ⟨_, _, by simp only [String.utf8EncodeChar, hnat, h1, h2, if_true, if_false]; rfl,
      by omega, hmore, fun rest hrest => ?_⟩
    rw [readPlain_eq, hlead, if_neg (by omega), if_pos (by omega), readCharacter_append hmore hrest]
    simp only [List.foldl_cons, List.foldl_nil, toNat_continuation]
    congr 1
    omega
  by_cases h3 : c.toNat ≤ 65535
  · have hlead : (UInt8.ofNat (c.toNat / 4096 % 16 + 224)).toNat = c.toNat / 4096 % 16 + 224 :=
      toNat_ofNat (by omega)
    have hmore : ∀ b ∈ [UInt8.ofNat (c.toNat / 64 % 64 + 128), UInt8.ofNat (c.toNat % 64 + 128)],
        isContinuation b = true :=
      List.forall_mem_cons.mpr ⟨isContinuation_ofNat _,
        List.forall_mem_singleton.mpr (isContinuation_ofNat _)⟩
    refine ⟨_, _, by simp only [String.utf8EncodeChar, hnat, h1, h2, h3, if_true, if_false]; rfl,
      by omega, hmore, fun rest hrest => ?_⟩
    rw [readPlain_eq, hlead, if_neg (by omega), if_neg (by omega), if_pos (by omega),
      readCharacter_append hmore hrest]
    simp only [List.foldl_cons, List.foldl_nil, toNat_continuation]
    congr 1
    omega
  · have hlead : (UInt8.ofNat (c.toNat / 262144 % 8 + 240)).toNat = c.toNat / 262144 % 8 + 240 :=
      toNat_ofNat (by omega)
    have hmore : ∀ b ∈ [UInt8.ofNat (c.toNat / 4096 % 64 + 128),
        UInt8.ofNat (c.toNat / 64 % 64 + 128), UInt8.ofNat (c.toNat % 64 + 128)],
        isContinuation b = true :=
      List.forall_mem_cons.mpr ⟨isContinuation_ofNat _, List.forall_mem_cons.mpr
        ⟨isContinuation_ofNat _, List.forall_mem_singleton.mpr (isContinuation_ofNat _)⟩⟩
    refine ⟨_, _, by simp only [String.utf8EncodeChar, hnat, h1, h2, h3, if_false]; rfl,
      by omega, hmore, fun rest hrest => ?_⟩
    rw [readPlain_eq, hlead, if_neg (by omega), if_neg (by omega), if_neg (by omega),
      readCharacter_append hmore hrest]
    simp only [List.foldl_cons, List.foldl_nil, toNat_continuation]
    congr 1
    omega

/-! ### Plain names -/

/-- Whether a character stands in a path for itself. -/
def IsPlainChar (c : Char) : Prop := c ≠ '"' ∧ c ≠ '\\' ∧ c ≠ '\x00'

instance (c : Char) : Decidable (IsPlainChar c) :=
  inferInstanceAs (Decidable (c ≠ '"' ∧ c ≠ '\\' ∧ c ≠ '\x00'))

/-- A name of characters that stand in a path for themselves. -/
def IsPlainName (name : String) : Prop := ∀ c ∈ name.toList, IsPlainChar c

instance (name : String) : Decidable (IsPlainName name) :=
  List.decidableBAll IsPlainChar name.toList

/-- The bytes of characters. -/
def bytesOf (cs : List Char) : List UInt8 := cs.flatMap String.utf8EncodeChar

/-- The bytes of a character that stands for itself are none of those that mean something else. -/
theorem byte_ne {c : Char} (hc : IsPlainChar c) {b : UInt8} (hb : b ∈ String.utf8EncodeChar c) :
    b ≠ 0 ∧ b ≠ quote := by
  have hlarge : 0x80 ≤ b.toNat → b ≠ 0 ∧ b ≠ quote := by
    intro h
    constructor <;> rintro rfl <;> exact absurd h (by decide)
  rcases bytes_cases c with ⟨hsmall, hbytes⟩ | ⟨lead, more, hled⟩
  · obtain rfl := List.mem_singleton.mp (hbytes ▸ hb)
    obtain ⟨hquote, -, hnull⟩ := hc
    have hnat : (UInt8.ofNat c.toNat).toNat = c.toNat := toNat_ofNat (by omega)
    constructor
    · intro h
      have h0 : c.toNat = 0 := by rw [← hnat, h]; rfl
      exact hnull (Char.toNat_inj.mp h0)
    · intro h
      have h34 : c.toNat = 0x22 := by rw [← hnat, h]; rfl
      exact hquote (Char.toNat_inj.mp h34)
  · rw [hled.bytes_eq] at hb
    apply hlarge
    rcases List.mem_cons.mp hb with rfl | hb
    · exact Nat.le_trans (by decide) hled.lead_ge
    · have hcont := hled.continues b hb
      rw [isContinuation, beq_iff_eq] at hcont
      omega

theorem startsFresh_bytesOf (cs : List Char) : StartsFresh (bytesOf cs) := by
  intro b hb
  cases cs with
  | nil => cases hb
  | cons c cs =>
    rw [bytesOf, List.flatMap_cons] at hb
    have hfresh : b.toNat < 0x80 ∨ 0xC0 ≤ b.toNat := by
      rcases bytes_cases c with ⟨hsmall, hbytes⟩ | ⟨lead, more, hled⟩
      · rw [hbytes] at hb
        obtain rfl := Option.some.inj hb
        rw [toNat_ofNat (by omega)]
        exact .inl hsmall
      · rw [hled.bytes_eq] at hb
        obtain rfl := Option.some.inj hb
        exact .inr hled.lead_ge
    have hmax := b.toNat_lt
    rw [isContinuation, beq_eq_false_iff_ne]
    omega

/-- A character that stands for itself is read from its bytes. -/
theorem codes_append {c : Char} (hc : IsPlainChar c) {rest : List UInt8}
    (hrest : StartsFresh rest) :
    codes (String.utf8EncodeChar c ++ rest) = c.toNat :: codes rest := by
  obtain ⟨-, hslash, hnull⟩ := hc
  have hzero : c.toNat ≠ 0 := fun h => hnull (Char.toNat_inj.mp h)
  rcases bytes_cases c with ⟨hsmall, hbytes⟩ | ⟨lead, more, hled⟩
  · have hnat : (UInt8.ofNat c.toNat).toNat = c.toNat := toNat_ofNat (by omega)
    have hne : UInt8.ofNat c.toNat ≠ backslash := by
      intro h
      have h92 : c.toNat = 0x5C := by rw [← hnat, h]; rfl
      exact hslash (Char.toNat_inj.mp h92)
    have hread : readCode (UInt8.ofNat c.toNat) rest = (c.toNat, rest) := by
      rw [readCode, if_neg hne, readPlain_eq, hnat, if_pos (by omega)]
    rw [hbytes, List.singleton_append, codes, hread, if_neg hzero]
  · have hne : lead ≠ backslash := by
      rintro rfl
      exact absurd hled.lead_ge (by decide)
    have hread : readCode lead (more ++ rest) = (c.toNat, rest) := by
      rw [readCode, if_neg hne, hled.read rest hrest]
    rw [hled.bytes_eq, List.cons_append, codes, hread, if_neg hzero]

/-- The bytes of characters that stand for themselves are read as these characters. -/
theorem codes_bytesOf : ∀ {cs : List Char}, (∀ c ∈ cs, IsPlainChar c) →
    codes (bytesOf cs) = cs.map Char.toNat
  | [], _ => by rw [bytesOf, List.flatMap_nil, codes, List.map_nil]
  | c :: cs, h => by
    obtain ⟨hc, hcs⟩ := List.forall_mem_cons.mp h
    have hsplit : bytesOf (c :: cs) = String.utf8EncodeChar c ++ bytesOf cs := List.flatMap_cons
    rw [hsplit, codes_append hc (startsFresh_bytesOf cs), codes_bytesOf hcs, List.map_cons]

/-- The path to a column with a plain name is the name. -/
theorem ofColumn?_of_isPlainName {column : String} (h : IsPlainName column) :
    ofColumn? column = some ⟨bytesOf column.toList, []⟩ := by
  have hbytes : ∀ b ∈ bytesOf column.toList, b ≠ 0 ∧ b ≠ quote := by
    intro b hb
    obtain ⟨c, hc, hb⟩ := List.mem_flatMap.mp hb
    exact byte_ne (h c hc) hb
  have hescape : escapeQuotes (bytesOf column.toList) = bytesOf column.toList := by
    have hkeep : ∀ b ∈ bytesOf column.toList,
        (if b = quote then [backslash, quote] else [b]) = [b] :=
      fun b hb => if_neg (hbytes b hb).2
    rw [escapeQuotes, List.flatMap_congr hkeep, List.flatMap_singleton']
  have hnull : (bytesOf column.toList ++ [quote]).takeWhile (· != 0) =
      bytesOf column.toList ++ [quote] := by
    refine List.takeWhile_eq_self_iff.mpr fun b hb => bne_iff_ne.mpr ?_
    rcases List.mem_append.mp hb with hb | hb
    · exact (hbytes b hb).1
    · rw [List.mem_singleton.mp hb]
      decide
  have hlabel : ∀ b ∈ bytesOf column.toList, (b != quote) = true :=
    fun b hb => bne_iff_ne.mpr (hbytes b hb).2
  have hquote : (quote != quote) = false := by decide
  rw [ofColumn?, Text.bytes, ← bytesOf, hescape, hnull, ofQuoted?,
    List.dropWhile_append_of_pos hlabel, List.takeWhile_append_of_pos hlabel,
    List.dropWhile_cons, List.takeWhile_cons, hquote]
  simp

/-- Only the cell of that name is found under the name: no other name goes on behind it with a null
character. -/
def IsOnlyName (column : String) (row : Row) : Prop :=
  ∀ key ∈ row.keys, key.toList.takeWhile (· != '\x00') = column.toList → key = column

instance (column : String) (row : Row) : Decidable (IsOnlyName column row) :=
  inferInstanceAs (Decidable (∀ key ∈ row.keys,
    key.toList.takeWhile (· != '\x00') = column.toList → key = column))

theorem nameCodes_eq (name : String) :
    nameCodes name = (name.toList.takeWhile (· != '\x00')).map Char.toNat := by
  have hzero : ((· != 0) ∘ Char.toNat) = (· != '\x00') := by
    funext c
    have hnull : ('\x00').toNat = 0 := rfl
    have hiff : c.toNat = 0 ↔ c = '\x00' := hnull ▸ Char.toNat_inj
    rw [Function.comp_apply, Bool.eq_iff_iff, bne_iff_ne, bne_iff_ne, Ne, hiff]
  rw [nameCodes, List.takeWhile_map, hzero]

theorem map_toNat_inj {cs cs' : List Char} : cs.map Char.toNat = cs'.map Char.toNat ↔ cs = cs' :=
  (List.map_injective_iff.mpr fun _ _ => Char.toNat_inj.mp).eq_iff

/-- The path to a plain name leads to the cell of that name. -/
theorem lookup_eq {column : String} {row : Row} (hplain : IsPlainName column)
    (honly : IsOnlyName column row) :
    (⟨bytesOf column.toList, []⟩ : CellPath).lookup row = .ok (row.cell column) := by
  have hself : column.toList.takeWhile (· != '\x00') = column.toList :=
    List.takeWhile_eq_self_iff.mpr fun c hc => bne_iff_ne.mpr (hplain c hc).2.2
  have hnamed : ∀ e ∈ row.entries,
      (nameCodes e.1 == codes (bytesOf column.toList)) = true → e.1 = column := by
    intro e he h
    rw [beq_iff_eq, nameCodes_eq, codes_bytesOf hplain, map_toNat_inj] at h
    exact honly e.1 (List.mem_map_of_mem he) h
  have hown : (nameCodes column == codes (bytesOf column.toList)) = true := by
    rw [beq_iff_eq, nameCodes_eq, codes_bytesOf hplain, hself]
  unfold lookup Row.cell
  cases hget : row.get? column with
  | none =>
    have hnone : (row.entries.find? fun e => nameCodes e.1 == codes (bytesOf column.toList)) =
        none := by
      refine List.find?_eq_none.mpr fun e he h => ?_
      have hkey : column ∈ row.keys := hnamed e he h ▸ List.mem_map_of_mem he
      exact (OrderedMap.get?_eq_none_iff row column).mp hget hkey
    simp only [hnone, Option.getD_none]
  | some v =>
    have hfind : (row.entries.find? fun e => nameCodes e.1 == codes (bytesOf column.toList)) =
        some (column, v) := by
      refine find?_of_unique ((OrderedMap.get?_eq_some_iff row column v).mp hget) hown ?_
      rintro ⟨key, w⟩ he h
      obtain rfl := hnamed _ he h
      rw [(OrderedMap.get?_eq_some_iff row key w).mpr he] at hget
      rw [Option.some.inj hget]
    simp only [hfind, List.isEmpty_nil, if_true, Option.getD_some]

end CellPath
end DocumentSql
