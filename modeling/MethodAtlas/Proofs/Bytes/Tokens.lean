import MethodAtlas.Proofs.Bytes.Compressed

/-!
# Compressed tokens and coded indexes

A number that tells a type definition, reference or specification is read as a token from a
signature and as a coded index from a table. The index keeps table and row apart. The token has 24
bits for the row, and a larger row runs into the bits of the table: the two readings agree exactly
as long as the row fits (`Decoder.token_agrees_iff`).
-/
namespace MethodAtlas

/-- A token names the row that an index refers to. -/
structure Token.Names (t : Token) (i : CodedIndex) : Prop where
  table : t.isOf i.table = true
  row : t.row = i.row

/-- A reading as a token and one as an index agree if both fail, or if the token names the row of
the index. -/
def Token.Agrees : Except Fault Token → Option CodedIndex → Prop
  | .ok t, some i => t.Names i
  | .error _, none => True
  | .ok _, none => False
  | .error _, some _ => False

namespace CodedKind

/-- The low two bits tell the table, the bits above them the row. -/
theorem decode?_typeDefOrRef (value : Nat) :
    typeDefOrRef.decode? value = (typeDefOrRef.table? (value % 4)).map (⟨·, value / 4⟩) := by
  have hrow : value >>> typeDefOrRef.tagBits = value / 4 := Nat.shiftRight_eq_div_pow value 2
  rw [decode?, hrow]
  rfl

/-- Three of the four tags select a table. -/
theorem table?_typeDefOrRef_eq_none_iff {tag : Nat} : typeDefOrRef.table? tag = none ↔ 3 ≤ tag := by
  simp [table?, firstTag, targets]

end CodedKind

namespace Token

/-- The bits of a token of a table and a row name that row exactly if it has 24 bits. -/
theorem names_mk_or_iff {table : TableId} {row : Nat} :
    (⟨(table.number * 0x1000000) ||| row⟩ : Token).Names ⟨table, row⟩ ↔ row < 0x1000000 := by
  constructor
  · intro h
    have hrow : row = _ % 0x1000000 := h.row.symm
    rw [hrow]
    exact Nat.mod_lt _ (by decide)
  · intro h
    rw [mk_or_eq_ofParts h]
    exact ⟨by simp [isOf], by simp [Nat.mod_eq_of_lt h]⟩

end Token

namespace Decoder
variable {bytes : ByteArray} {c c' : Cursor} {value : Nat}

/-- The number that is read for a token decides what is read. -/
theorem run_token (h : compressed.run bytes c = (.ok value, c')) :
    token.run bytes c = ((CodedKind.typeDefOrRef.table? (value % 4)).elim
      (.error (.malformed (.compressedToken value)))
      fun table => .ok ⟨(table.number * 0x1000000) ||| (value / 4)⟩, c') := by
  rw [token, run_bind, h]
  dsimp only
  cases CodedKind.typeDefOrRef.table? (value % 4) <;> rfl

/-- Every number below `2 ^ 29` can be read. Where it is, the readings as a token and as a coded
index agree exactly if the tag selects no table, so that both fail, or if the row has no more bits
than a token has for it. -/
theorem token_agrees_iff (hvalue : value < 0x20000000) :
    (∃ bytes c c', compressed.run bytes c = (.ok value, c')) ∧
      ∀ bytes c c', compressed.run bytes c = (.ok value, c') →
        (Token.Agrees (token.run bytes c).1 (CodedKind.typeDefOrRef.decode? value) ↔
          value % 4 = 3 ∨ value / 4 < 0x1000000) := by
  constructor
  · exact ⟨⟨(Compressed.number value ++ []).toArray⟩, _, _,
      (Reads.compressed hvalue).run_start trivial⟩
  intro bytes c c' h
  rw [run_token h, CodedKind.decode?_typeDefOrRef]
  have htag : CodedKind.typeDefOrRef.table? (value % 4) = none ↔ 3 ≤ value % 4 :=
    CodedKind.table?_typeDefOrRef_eq_none_iff
  cases htable : CodedKind.typeDefOrRef.table? (value % 4) with
  | none =>
    have hunused : value % 4 = 3 := by
      have hle := htag.mp htable
      omega
    exact iff_of_true trivial (.inl hunused)
  | some table =>
    have hused : value % 4 ≠ 3 := by
      intro hthree
      rw [htag.mpr (Nat.le_of_eq hthree.symm)] at htable
      cases htable
    rw [or_iff_right hused]
    exact Token.names_mk_or_iff

/-- The last row that a token has the bits for. -/
theorem token_agrees_iff_last_row : 0x3FFFFFE < 0x20000000 ∧
    compressed.run ⟨#[0xC3, 0xFF, 0xFF, 0xFE]⟩ .start = (.ok 0x3FFFFFE, ⟨4, 0⟩) ∧
    token.run ⟨#[0xC3, 0xFF, 0xFF, 0xFE]⟩ .start = (.ok ⟨0x1BFFFFFF⟩, ⟨4, 0⟩) ∧
    CodedKind.typeDefOrRef.decode? 0x3FFFFFE = some ⟨.typeSpec, 0xFFFFFF⟩ ∧
    Token.Agrees (token.run ⟨#[0xC3, 0xFF, 0xFF, 0xFE]⟩ .start).1
      (CodedKind.typeDefOrRef.decode? 0x3FFFFFE) := by
  have hread : compressed.run ⟨#[0xC3, 0xFF, 0xFF, 0xFE]⟩ .start = (.ok 0x3FFFFFE, ⟨4, 0⟩) := rfl
  exact ⟨by decide, hread, rfl, rfl,
    ((token_agrees_iff (by decide)).2 _ _ _ hread).mpr (.inr (by decide))⟩

/-- One row further the token of a type definition turns into that of another table, where the
index still refers to the row. -/
theorem token_of_wide_row :
    compressed.run ⟨#[0xC4, 0x00, 0x00, 0x00]⟩ .start = (.ok 0x4000000, ⟨4, 0⟩) ∧
    token.run ⟨#[0xC4, 0x00, 0x00, 0x00]⟩ .start = (.ok (.ofParts .fieldPtr 0), ⟨4, 0⟩) ∧
    CodedKind.typeDefOrRef.decode? 0x4000000 = some ⟨.typeDef, 0x1000000⟩ ∧
    ¬Token.Agrees (token.run ⟨#[0xC4, 0x00, 0x00, 0x00]⟩ .start).1
      (CodedKind.typeDefOrRef.decode? 0x4000000) :=
  ⟨rfl, rfl, rfl, fun h => absurd h.table (by decide)⟩

end Decoder
end MethodAtlas
