import MethodAtlas.Fault

/-!
# Text in bytes

Names are stored as UTF-8, the labels of the metadata root as Latin-1. `decode` reads UTF-8 and
says where bytes that are none go wrong; `decode_toByteArray` says that it reads back every
string.
-/
namespace MethodAtlas.Text

/-- What may follow a lead byte: how many bytes, and the range of the first of them. -/
structure Continuation where
  count : Nat
  low : UInt8
  high : UInt8
deriving DecidableEq, Repr

/-- The continuation that a lead byte asks for; overlong forms, surrogates and numbers above
`10FFFF` are kept out by the range of its first byte. -/
def continuation? (lead : UInt8) : Option Continuation :=
  if lead ≤ 0x7F then some ⟨0, 0x80, 0xBF⟩
  else if lead < 0xC2 then none
  else if lead ≤ 0xDF then some ⟨1, 0x80, 0xBF⟩
  else if lead = 0xE0 then some ⟨2, 0xA0, 0xBF⟩
  else if lead = 0xED then some ⟨2, 0x80, 0x9F⟩
  else if lead ≤ 0xEF then some ⟨2, 0x80, 0xBF⟩
  else if lead = 0xF0 then some ⟨3, 0x90, 0xBF⟩
  else if lead ≤ 0xF3 then some ⟨3, 0x80, 0xBF⟩
  else if lead = 0xF4 then some ⟨3, 0x80, 0x8F⟩
  else none

/-- The first damage in bytes that follow `valid` bytes of whole characters and `seen` bytes of a
character that still asks for `expected`. -/
def findDamage (valid seen : Nat) (expected : Continuation) : List UInt8 → Option TextDamage
  | [] => if expected.count = 0 then none else some ⟨valid, none⟩
  | b :: rest =>
    if expected.count = 0 then
      match continuation? b with
      | none => some ⟨valid, some 1⟩
      | some next =>
        if next.count = 0 then findDamage (valid + 1) 0 next rest
        else findDamage valid 1 next rest
    else if expected.low ≤ b ∧ b ≤ expected.high then
      if expected.count = 1 then findDamage (valid + seen + 1) 0 ⟨0, 0x80, 0xBF⟩ rest
      else findDamage valid (seen + 1) ⟨expected.count - 1, 0x80, 0xBF⟩ rest
    else some ⟨valid, some seen⟩

/-- Where bytes that are not UTF-8 go wrong. -/
def damage (bytes : ByteArray) : TextDamage :=
  (findDamage 0 0 ⟨0, 0x80, 0xBF⟩ bytes.data.toList).getD ⟨0, none⟩

/-- The string that the bytes spell in UTF-8. -/
def decode (bytes : ByteArray) : Except TextDamage String :=
  if h : bytes.IsValidUTF8 then .ok (String.fromUTF8 bytes h) else .error (damage bytes)

/-- Every string is read back from its bytes. -/
@[simp] theorem decode_toByteArray (s : String) : decode s.toByteArray = .ok s := by
  rw [decode, dif_pos s.isValidUTF8]
  rfl

/-- Only the bytes of a string are read as that string. -/
theorem toByteArray_of_decode {bytes : ByteArray} {s : String} (h : decode bytes = .ok s) :
    s.toByteArray = bytes := by
  rw [decode] at h
  split at h
  · cases h; rfl
  · cases h

/-- The string whose characters have the numbers of the bytes. -/
def latin1 (bytes : List UInt8) : String :=
  String.ofList (bytes.map fun b => Char.ofNat b.toNat)

end MethodAtlas.Text
