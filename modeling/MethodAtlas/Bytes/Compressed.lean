import MethodAtlas.Decoder
import MethodAtlas.Text.Utf8

/-!
# Compressed numbers, tokens and strings

The encodings of ECMA-335 II.23 that signatures and attribute values are made of. A number below
`2 ^ 29` takes one, two or four bytes, the most significant first; the leading bits of the first
byte tell how many. A token is a compressed number whose low two bits select the table. A string
is its compressed length and its UTF-8 bytes, or one byte `FF` for no string.
-/
namespace MethodAtlas

/-- Tokens with a compressed form: those of type definitions, references and specifications. -/
def Token.IsCompressible (t : Token) : Prop :=
  ∃ table ∈ CodedKind.typeDefOrRef.targets, ∃ row < 0x1000000, t = .ofParts table row

namespace Compressed

/-- The compressed form of a number below `2 ^ 29`. -/
def number (n : Nat) : List UInt8 :=
  if n < 0x80 then [UInt8.ofNat n]
  else if n < 0x4000 then [UInt8.ofNat (0x80 + n / 0x100), UInt8.ofNat n]
  else
    [UInt8.ofNat (0xC0 + n / 0x1000000), UInt8.ofNat (n / 0x10000), UInt8.ofNat (n / 0x100),
      UInt8.ofNat n]

/-- The compressed form of a token; there is none for a table that no tag selects. -/
def token (t : Token) : List UInt8 :=
  match t.table?.bind fun table => CodedKind.typeDefOrRef.encode? ⟨table, t.row⟩ with
  | some value => number value
  | none => []

/-- The stored form of a string or of its absence. -/
def string : Option String → List UInt8
  | none => [0xFF]
  | some s => number s.utf8ByteSize ++ s.toByteArray.data.toList

/-- Strings with a stored form, or none. -/
def StorableString (s? : Option String) : Prop := ∀ s ∈ s?, s.utf8ByteSize < 0x20000000

end Compressed

namespace Decoder

/-- A compressed number. -/
def compressed : Decoder Nat := do
  let lead ← byte
  if lead < 0x80 then pure lead.toNat
  else if lead < 0xC0 then
    let low ← byte
    pure ((lead.toNat - 0x80) * 0x100 + low.toNat)
  else if lead < 0xE0 then
    let b₁ ← byte
    let b₂ ← byte
    let b₃ ← byte
    pure ((lead.toNat - 0xC0) * 0x1000000 + b₁.toNat * 0x10000 + b₂.toNat * 0x100 + b₃.toNat)
  else malformed (.compressedNumber lead.toNat)

/-- A compressed token. A row above 24 bits runs into the number of the table. -/
def token : Decoder Token := do
  let value ← compressed
  match CodedKind.typeDefOrRef.table? (value % 4) with
  | some table => pure ⟨(table.number * 0x1000000) ||| (value / 4)⟩
  | none => malformed (.compressedToken value)

/-- A string, or none where the byte `FF` stands for it. -/
def string : Decoder (Option String) := do
  let lead ← peek
  if lead = 0xFF then
    skip 1
    pure none
  else
    let length ← compressed
    let start ← cursor
    let bytes ← take length
    match Text.decode bytes with
    | .ok s => pure (some s)
    | .error damage => malformed (.text start.position damage)

end Decoder
end MethodAtlas
