import MethodAtlas.Decoder
import MethodAtlas.Text.Utf8

/-!
# The headers of an image

A portable executable image tells in its headers which parts of the file are mapped to which
addresses in memory, and where its directories lie. Which files have such headers is left to a
`HeaderReader`. `ImageHeaders.read?` is one that accepts the images whose headers lie within the
file and whose runtime directory, if there is one, leads to metadata.
-/
namespace MethodAtlas

/-- A part of the file and the addresses it is mapped to. -/
structure Section where
  virtualSize : Nat
  virtualAddress : Nat
  rawSize : Nat
  rawPointer : Nat
deriving DecidableEq, Repr

/-- The place of a directory in memory. -/
structure Directory where
  address : Nat
  size : Nat
deriving DecidableEq, Repr

/-- The header that images to be run have and others may lack. -/
structure OptionalHeader where
  fileAlignment : Nat
  directories : List Directory
deriving DecidableEq, Repr

/-- The headers of an image. -/
structure ImageHeaders where
  optional : Option OptionalHeader
  sections : List Section
deriving DecidableEq, Repr

/-- Reads the headers at the start of a file, if it is an image. -/
abbrev HeaderReader := ByteArray → Option ImageHeaders

/-- `n` rounded up to a multiple of `unit`. -/
def roundUp (unit n : Nat) : Nat := (n + unit - 1) / unit * unit

/-- `n` rounded down to a multiple of `unit`. -/
def roundDown (unit n : Nat) : Nat := n / unit * unit

namespace Section

/-- The size of a section header. -/
def headerSize : Nat := 40

def decoder : Decoder Section := do
  .skip 8
  let virtualSize ← .number 4
  let virtualAddress ← .number 4
  let rawSize ← .number 4
  let rawPointer ← .number 4
  .skip 16
  pure { virtualSize, virtualAddress, rawSize, rawPointer }

/-- The bytes of the section that are mapped when whole pages are read from the file. -/
def mappedSize (s : Section) (alignment : Nat) : Nat :=
  if s.rawSize = 0 then 0
  else
    let stored := min (roundUp alignment (s.rawPointer + s.rawSize) - roundDown 0x200 s.rawPointer)
      (roundUp 0x1000 s.rawSize)
    if s.virtualSize = 0 then stored else min stored (roundUp 0x1000 s.virtualSize)

/-- Whether an address is mapped when whole pages are read. -/
def maps (s : Section) (alignment address : Nat) : Bool :=
  s.virtualAddress ≤ address && address < s.virtualAddress + s.mappedSize alignment

/-- The place in the file of an address of the section. -/
def offsetOf (s : Section) (address : Nat) : Nat := address - s.virtualAddress + s.rawPointer

end Section

namespace Directory

def decoder : Decoder Directory := do
  let address ← .number 4
  let size ← .number 4
  pure { address, size }

/-- Whether the directory is there. -/
def isPresent (d : Directory) : Bool := d.address != 0 || d.size != 0

end Directory

namespace OptionalHeader

/-- The largest number of directories. -/
def directoryLimit : Nat := 16

/-- The number of the directory that leads to the runtime header. -/
def runtimeIndex : Nat := 14

/-- The size of the header in front of its directories; there are two formats. -/
def fixedSize? (magic : Nat) : Option Nat :=
  if magic = 0x10B then some 96 else if magic = 0x20B then some 112 else none

def decoder : Decoder OptionalHeader := do
  let magic ← .number 2
  match fixedSize? magic with
  | none => .fail .imageRejected
  | some fixedSize =>
    .skip 34
    let fileAlignment ← .number 4
    .skip (fixedSize - 44)
    let count ← .number 4
    if directoryLimit < count then .fail .imageRejected
    else
      let directories ← Decoder.many Directory.decoder count
      pure { fileAlignment, directories }

/-- The directory that leads to the runtime header, if it is there. -/
def runtime? (h : OptionalHeader) : Option Directory :=
  (h.directories[runtimeIndex]?).filter Directory.isPresent

end OptionalHeader

namespace ImageHeaders

/-- The number at an offset. -/
def number? (bytes : ByteArray) (offset width : Nat) : Option Nat :=
  ((Decoder.number width).decodeAt bytes offset).toOption

/-- The place in the file of an address, by the first section that maps it in whole pages. -/
def offset? (sections : List Section) (alignment address : Nat) : Option Nat :=
  if alignment.isPowerOfTwo then
    (sections.find? fun s => s.maps alignment address).map fun s => s.offsetOf address
  else none

/-- Whether a version text of valid UTF-8 and four more bytes lie behind the start of a root. -/
def hasVersion (bytes : ByteArray) (root : Nat) : Bool :=
  match number? bytes (root + 12) 4 with
  | none => false
  | some length =>
    match (Decoder.take length).decodeAt bytes (root + 16) with
    | .error _ => false
    | .ok version =>
      decide version.IsValidUTF8 && (number? bytes (root + 16 + length) 4).isSome

/-- Whether the runtime directory leads to a runtime header, and that to metadata, in the file. -/
def leadsToMetadata (bytes : ByteArray) (h : OptionalHeader) (sections : List Section)
    (runtime : Directory) : Bool :=
  Option.isSome do
    let header ← offset? sections h.fileAlignment runtime.address
    guard (header + 72 ≤ bytes.size)
    let address ← number? bytes (header + 8) 4
    let size ← number? bytes (header + 12) 4
    let root ← offset? sections h.fileAlignment address
    guard (root + size ≤ bytes.size ∧ hasVersion bytes root)

/-- The headers at the start of a file whose sections and runtime directory lie within it. -/
def read? : HeaderReader := fun bytes => do
  guard (0x40 ≤ bytes.size)
  guard (Bytes.byte? bytes 0 = some 0x4D ∧ Bytes.byte? bytes 1 = some 0x5A)
  let start ← number? bytes 0x3C 4
  guard (0x40 ≤ start)
  let mark ← number? bytes start 4
  guard (mark = 0x00004550)
  let sectionCount ← number? bytes (start + 6) 2
  let optionalSize ← number? bytes (start + 20) 2
  guard (start + 24 ≤ bytes.size)
  let optional ←
    if optionalSize = 0 then pure none
    else (OptionalHeader.decoder.decodeAt bytes (start + 24)).toOption.map some
  guard (sectionCount ≤ bytes.size / Section.headerSize)
  let sectionDecoder := Decoder.many Section.decoder sectionCount
  let sections ← (sectionDecoder.decodeAt bytes (start + 24 + optionalSize)).toOption
  if let some h := optional then
    if let some runtime := h.runtime? then
      guard (leadsToMetadata bytes h sections runtime)
  pure { optional, sections }

end ImageHeaders
end MethodAtlas
