import MethodAtlas.Decoder

/-!
# The runtime header

The header of a managed image (ECMA-335 II.25.3.3). It tells where in memory the metadata lies
and how large it is.
-/
namespace MethodAtlas

/-- The fields of the runtime header up to the entry point. -/
structure RuntimeHeader where
  size : Nat
  majorVersion : Nat
  minorVersion : Nat
  metadataAddress : Nat
  metadataSize : Nat
  flags : Nat
  entryPoint : Nat
deriving DecidableEq, Repr

namespace RuntimeHeader

/-- The size of the header, which it also states itself. -/
def storedSize : Nat := 72

/-- The largest metadata that is accepted. -/
def metadataLimit : Nat := 0x10000000

/-- The header; its size has to be the known one and the metadata neither missing nor huge. -/
def decoder : Decoder RuntimeHeader := do
  .need storedSize
  let size ← .number 4
  if size ≠ storedSize then .malformed (.runtimeHeaderSize size) else
  let majorVersion ← .number 2
  let minorVersion ← .number 2
  let metadataAddress ← .number 4
  if metadataAddress = 0 then .malformed .metadataAddressZero else
  let metadataSize ← .number 4
  if metadataSize = 0 then .malformed .metadataSizeZero else
  if metadataSize > metadataLimit then .malformed (.metadataTooLarge metadataSize) else
  let flags ← .number 4
  let entryPoint ← .number 4
  pure { size, majorVersion, minorVersion, metadataAddress, metadataSize, flags, entryPoint }

/-- Reads the header at the start of the bytes. -/
def ofBytes (bytes : ByteArray) : Except Fault RuntimeHeader := decoder.decode bytes

end RuntimeHeader
end MethodAtlas
