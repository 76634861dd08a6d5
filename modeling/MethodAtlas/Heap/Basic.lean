import MethodAtlas.Bytes.Compressed

/-!
# The heaps

Names lie in one heap, each ended by a zero byte, and are referred to by the offset of any of
their characters. Signatures and attribute values lie in another one, each behind its compressed
length, and are referred to by the offset of that length. A heap starts with the empty string or
blob.
-/
namespace MethodAtlas

/-- A heap of strings. -/
structure StringHeap where
  bytes : ByteArray
  startsEmpty : Bytes.byte? bytes 0 = some 0
deriving DecidableEq

namespace StringHeap

/-- A heap has to start with a zero byte. -/
def ofBytes (bytes : ByteArray) : Except Fault StringHeap :=
  if h : Bytes.byte? bytes 0 = some 0 then .ok ⟨bytes, h⟩
  else .error (.malformed .stringHeapEmpty)

/-- The string from an offset up to the next zero byte. -/
def get (heap : StringHeap) (index : Nat) : Except Fault String :=
  if heap.bytes.size ≤ index then .error .outOfBounds
  else
    match Bytes.findZero heap.bytes index (heap.bytes.size - index) with
    | none => .error (.malformed (.stringIndex index))
    | some stop =>
      match Text.decode (heap.bytes.extract index stop) with
      | .ok s => .ok s
      | .error _ => .error (.malformed (.stringIndex index))

/-- The bytes of a heap that holds these strings after the empty one. -/
def encode (strings : List String) : List UInt8 :=
  0 :: strings.flatMap fun s => s.toByteArray.data.toList ++ [0]

end StringHeap

/-- A heap of byte strings. -/
structure BlobHeap where
  bytes : ByteArray
  startsEmpty : Bytes.byte? bytes 0 = some 0
deriving DecidableEq

namespace BlobHeap

/-- A heap has to start with a zero byte. -/
def ofBytes (bytes : ByteArray) : Except Fault BlobHeap :=
  if h : Bytes.byte? bytes 0 = some 0 then .ok ⟨bytes, h⟩ else .error (.malformed .blobHeap)

/-- A blob at the cursor. -/
def blob : Decoder ByteArray := do
  let length ← .compressed
  .take length

/-- The blob at an offset. -/
def get (heap : BlobHeap) (index : Nat) : Except Fault ByteArray := blob.decodeAt heap.bytes index

/-- The stored form of a blob. -/
def encodeBlob (blob : List UInt8) : List UInt8 := Compressed.number blob.length ++ blob

/-- The bytes of a heap that holds these blobs after the empty one. -/
def encode (blobs : List (List UInt8)) : List UInt8 := 0 :: blobs.flatMap encodeBlob

end BlobHeap

end MethodAtlas
