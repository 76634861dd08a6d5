import MethodAtlas.Decoder
import MethodAtlas.Text.Utf8

/-!
# The metadata root

The root (ECMA-335 II.24.2.1) opens the metadata. It holds a version text and the headers of the
streams that the rest of the metadata is divided into. `StreamHeader.encode` and
`MetadataRoot.encode` lay a root out.
-/
namespace MethodAtlas

/-- Where a stream lies within the metadata. -/
structure StreamHeader where
  offset : Nat
  size : Nat
  name : String
deriving DecidableEq, Repr

namespace StreamHeader

/-- The names a stream can have. -/
def names : List String := ["#Strings", "#US", "#Blob", "#GUID", "#~", "#-"]

/-- The longest stretch of bytes that is searched for the end of a name. -/
def nameLimit : Nat := 32

/-- A name with its final zero byte is padded to a multiple of four bytes. -/
def paddedName (length : Nat) : Nat := (length + 4) / 4 * 4

/-- The bytes a header takes. -/
def storedSize (h : StreamHeader) : Nat := 8 + paddedName h.name.utf8ByteSize

/-- The end of the stream within the metadata. -/
def stop (h : StreamHeader) : Nat := h.offset + h.size

/-- A header; the cursor is left in front of the name. -/
def decoder : Decoder StreamHeader := do
  .need 9
  let offset ← .number 4
  let size ← .number 4
  let label ← .lookahead nameLimit
  let name := Text.latin1 (label.takeWhile (· ≠ 0))
  if names.contains name then pure ⟨offset, size, name⟩ else .malformed (.streamName name)

/-- Reads a header at the start of the bytes. -/
def ofBytes (bytes : ByteArray) : Except Fault StreamHeader := decoder.decode bytes

/-- The stored form of a header. -/
def encode (h : StreamHeader) : List UInt8 :=
  let label := h.name.toByteArray.data.toList
  Bytes.toLE 4 h.offset ++ Bytes.toLE 4 h.size ++ label
    ++ List.replicate (paddedName label.length - label.length) 0

end StreamHeader

/-- The root with its stream headers. -/
structure MetadataRoot where
  signature : Nat
  majorVersion : Nat
  minorVersion : Nat
  reserved : Nat
  /-- The bytes that the version text has for itself. -/
  versionLength : Nat
  version : String
  flags : Nat
  streams : List StreamHeader
deriving DecidableEq, Repr

namespace MetadataRoot

/-- The number a root starts with. -/
def magic : Nat := 0x424A5342

/-- The largest number of streams. -/
def streamLimit : Nat := 5

/-- The smallest size of metadata. -/
def sizeLimit : Nat := 36

/-- A stream has to lie within the metadata. -/
def checkExtent (bytes : ByteArray) (h : StreamHeader) : Except Fault Unit :=
  if 0x100000000 ≤ h.stop then .error (.malformed (.streamOverflow h.offset h.size))
  else if bytes.size < h.stop then .error .outOfBounds
  else .ok ()

/-- The headers that follow one another from an offset on. -/
def readStreams (bytes : ByteArray) : (count offset : Nat) → Except Fault (List StreamHeader)
  | 0, _ => .ok []
  | count + 1, offset => do
    let h ← StreamHeader.decoder.decodeAt bytes offset
    checkExtent bytes h
    let rest ← readStreams bytes count (offset + h.storedSize)
    pure (h :: rest)

/-- A root without its stream headers, and their number. -/
def prologue : Decoder (MetadataRoot × Nat) := do
  .need sizeLimit
  let signature ← .number 4
  if signature ≠ magic then .malformed (.rootSignature signature) else
  let majorVersion ← .number 2
  let minorVersion ← .number 2
  let reserved ← .number 4
  let versionLength ← .number 4
  .need (versionLength + 4)
  let label ← .take versionLength
  let version := Text.latin1 (label.data.toList.takeWhile (· ≠ 0))
  let flags ← .number 2
  let count ← .number 2
  pure ({ signature, majorVersion, minorVersion, reserved, versionLength, version, flags,
          streams := [] }, count)

/-- Reads the root at the start of the metadata. -/
def ofBytes (bytes : ByteArray) : Except Fault MetadataRoot := do
  match prologue.run bytes .start with
  | (.error e, _) => .error e
  | (.ok (root, count), c) =>
    if count = 0 ∨ streamLimit < count ∨ bytes.size < count * 9 then
      .error (.malformed (.streamCount count))
    else
      let streams ← readStreams bytes count c.position
      pure { root with streams }

/-- The stored form of a root whose version text has this label, followed by stream headers. -/
def encode (majorVersion minorVersion reserved flags : Nat) (label : List UInt8)
    (streams : List StreamHeader) : List UInt8 :=
  Bytes.toLE 4 magic ++ Bytes.toLE 2 majorVersion ++ Bytes.toLE 2 minorVersion
    ++ Bytes.toLE 4 reserved ++ Bytes.toLE 4 label.length ++ label ++ Bytes.toLE 2 flags
    ++ Bytes.toLE 2 streams.length ++ streams.flatMap StreamHeader.encode

/-- The first stream of a name. -/
def stream? (root : MetadataRoot) (name : String) : Option StreamHeader :=
  root.streams.find? fun h => h.name == name

end MetadataRoot
end MethodAtlas
