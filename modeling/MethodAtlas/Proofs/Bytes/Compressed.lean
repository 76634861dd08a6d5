import MethodAtlas.Bytes.Compressed
import MethodAtlas.Proofs.Bytes.Reads

/-!
# Compressed numbers, tokens and strings are read back

Numbers below `2 ^ 29`, tokens of the tables that a tag selects and strings shorter than `2 ^ 29`
bytes have a stored form, which is read back whatever follows it.
-/
namespace MethodAtlas

/-- A row of 24 bits leaves the bits of the table alone. -/
theorem Token.mk_or_eq_ofParts {table : TableId} {row : Nat} (h : row < 0x1000000) :
    (⟨(table.number * 0x1000000) ||| row⟩ : Token) = .ofParts table row := by
  have hshift := Nat.shiftLeft_add_eq_or_of_lt (i := 24) (by omega) table.number
  simp only [Nat.shiftLeft_eq, Nat.reducePow] at hshift
  rw [← hshift, ofParts, Nat.mod_eq_of_lt h]

/-- The first byte of a number is never the mark of no string. -/
theorem Compressed.exists_number_eq_cons {n : Nat} (h : n < 0x20000000) :
    ∃ lead more, number n = lead :: more ∧ lead ≠ 0xFF := by
  have hne : ∀ m < 0xFF, UInt8.ofNat m ≠ 0xFF := by
    intro m hm heq
    have hnat := congrArg UInt8.toNat heq
    simp at hnat
    omega
  rw [number]
  split
  · exact ⟨_, _, rfl, hne n (by omega)⟩
  · split
    · exact ⟨_, _, rfl, hne _ (by omega)⟩
    · exact ⟨_, _, rfl, hne _ (by omega)⟩

namespace Decoder.Reads

theorem compressed {n : Nat} (h : n < 0x20000000) :
    Reads compressed (Compressed.number n) n := by
  rw [Compressed.number]
  split
  · next hsmall =>
    refine byte_bind ?_
    have hlead : (UInt8.ofNat n).toNat = n := by simp; omega
    rw [if_pos (by rw [UInt8.lt_iff_toNat_lt, hlead]; exact hsmall), hlead]
    exact .pure n
  · split
    · next hlarge hmedium =>
      refine byte_bind ?_
      have hlead : (UInt8.ofNat (0x80 + n / 0x100)).toNat = 0x80 + n / 0x100 := by simp; omega
      have hlow : (UInt8.ofNat n).toNat = n % 0x100 := by simp
      rw [if_neg (by rw [UInt8.lt_iff_toNat_lt, hlead]; simp),
        if_pos (by rw [UInt8.lt_iff_toNat_lt, hlead]; simp; omega)]
      refine byte_bind ?_
      have hvalue : (0x80 + n / 0x100 - 0x80) * 0x100 + n % 0x100 = n := by omega
      rw [hlead, hlow, hvalue]
      exact .pure n
    · next hlarge hhuge =>
      refine byte_bind ?_
      have hlead : (UInt8.ofNat (0xC0 + n / 0x1000000)).toNat = 0xC0 + n / 0x1000000 := by
        simp; omega
      have h₁ : (UInt8.ofNat (n / 0x10000)).toNat = n / 0x10000 % 0x100 := by simp
      have h₂ : (UInt8.ofNat (n / 0x100)).toNat = n / 0x100 % 0x100 := by simp
      have h₃ : (UInt8.ofNat n).toNat = n % 0x100 := by simp
      rw [if_neg (by rw [UInt8.lt_iff_toNat_lt, hlead]; simp; omega),
        if_neg (by rw [UInt8.lt_iff_toNat_lt, hlead]; simp),
        if_pos (by rw [UInt8.lt_iff_toNat_lt, hlead]; simp; omega)]
      refine byte_bind (byte_bind (byte_bind ?_))
      have hvalue : (0xC0 + n / 0x1000000 - 0xC0) * 0x1000000 + n / 0x10000 % 0x100 * 0x10000
          + n / 0x100 % 0x100 * 0x100 + n % 0x100 = n := by omega
      rw [hlead, h₁, h₂, h₃, hvalue]
      exact .pure n

theorem token {t : Token} (h : t.IsCompressible) : Reads token (Compressed.token t) t := by
  obtain ⟨table, htable, row, hrow, rfl⟩ := h
  obtain ⟨tag, htag⟩ := CodedKind.exists_tag? htable
  have hlt : tag < 4 := CodedKind.lt_of_table? (CodedKind.table?_of_tag? htag)
  have hencode : CodedKind.typeDefOrRef.encode? ⟨table, row⟩ = some (row <<< 2 + tag) := by
    rw [CodedKind.encode?, htag]
    rfl
  have hvalue : row <<< 2 + tag = row * 4 + tag := by rw [Nat.shiftLeft_eq]
  have hmod : (row * 4 + tag) % 4 = tag := by omega
  have hdiv : (row * 4 + tag) / 4 = row := by omega
  rw [Compressed.token, Token.table?_ofParts, Token.row_ofParts, Nat.mod_eq_of_lt hrow,
    Option.bind_some, hencode, hvalue]
  refine (compressed (n := row * 4 + tag) (by omega)).bind_nil ?_
  rw [hmod, CodedKind.table?_of_tag? htag, hdiv]
  dsimp only
  rw [Token.mk_or_eq_ofParts hrow]
  exact .pure _

theorem string {s? : Option String} (h : Compressed.StorableString s?) :
    Reads string (Compressed.string s?) s? := by
  cases s? with
  | none =>
    refine peek_bind 0xFF (fun _ _ => rfl) ?_
    rw [if_pos rfl]
    exact (skip [0xFF]).bind_nil (.pure none)
  | some s =>
    have hsize : s.utf8ByteSize < 0x20000000 := h s rfl
    obtain ⟨lead, more, hnumber, hlead⟩ := Compressed.exists_number_eq_cons hsize
    refine peek_bind lead (fun _ _ => by simp [Compressed.string, hnumber]) ?_
    rw [if_neg hlead]
    refine (compressed hsize).bind (ReadsBefore.cursor_bind fun start => ?_)
    have htext := take s.toByteArray.data.toList
    have hlength : s.toByteArray.data.toList.length = s.utf8ByteSize := by simp
    rw [hlength, Array.toArray_toList] at htext
    refine htext.bind_nil ?_
    rw [Text.decode_toByteArray]
    exact .pure (some s)

end Decoder.Reads
end MethodAtlas
