import MethodAtlas.Image.Headers

/-!
# Managed images

A file with its sections and the place of its runtime header, whatever reads its headers. An address
is found in the sections as they lie in memory.
-/
namespace MethodAtlas

/-- A file that is a managed image. -/
structure Image where
  bytes : ByteArray
  sections : List Section
  runtime : Directory
deriving DecidableEq

namespace Image

/-- Accepts a file that has the headers of an image and names a runtime header. -/
def ofBytes (readHeaders : HeaderReader) (bytes : ByteArray) : Except Fault Image :=
  if bytes.size = 0 then .error .empty
  else
    match readHeaders bytes with
    | none => .error .imageRejected
    | some { optional := none, .. } => .error (.malformed .noOptionalHeader)
    | some { optional := some h, sections } =>
      match h.runtime? with
      | none => .error (.malformed .noRuntimeDirectory)
      | some runtime =>
        if runtime.address = 0 ∨ runtime.size = 0 then .error (.malformed .noRuntimeDirectory)
        else .ok { bytes, sections, runtime }

/-- Opens the file at a path, whose bytes `readFile` finds. -/
def fromFile (readHeaders : HeaderReader) (readFile : String → Except Fault ByteArray)
    (path : String) : Except Fault Image := do
  let bytes ← readFile path
  ofBytes readHeaders bytes

/-- The length of the file. -/
def size (image : Image) : Nat := image.bytes.size

/-- The place in the file of an address that the first of these sections to hold it has. -/
def offsetIn (address : Nat) : List Section → Except Fault Nat
  | [] => .error (.malformed (.addressUnmapped address))
  | s :: rest =>
    if 0x100000000 ≤ s.virtualAddress + s.virtualSize then
      .error (.malformed (.sectionOverflow s.virtualAddress s.virtualSize))
    else if s.virtualAddress ≤ address ∧ address < s.virtualAddress + s.virtualSize then
      .ok (s.offsetOf address)
    else offsetIn address rest

/-- The place in the file of an address. -/
def offsetOf (image : Image) (address : Nat) : Except Fault Nat :=
  if 0x100000000 ≤ address then .error (.malformed (.addressTooLarge address))
  else offsetIn address image.sections

/-- A part of the file. -/
def slice (image : Image) (offset length : Nat) : Except Fault ByteArray :=
  (Decoder.take length).decodeAt image.bytes offset

end Image
end MethodAtlas
