import MethodAtlas.Table.Coded

/-!
# Faults

Why a module or a part of it could not be read. Each cause is a constructor that carries what it
talks about; `Malformation.message` and `Fault.message` hold the wording. A name that a module
simply does not have is not a fault.
-/
namespace MethodAtlas

/-- How bytes fail to be UTF-8: the length of the valid part and, unless the bytes just end too
early, how many bytes after it form no character. -/
structure TextDamage where
  validBytes : Nat
  badBytes : Option Nat
deriving DecidableEq, Repr

def TextDamage.message (d : TextDamage) : String :=
  match d.badBytes with
  | some n =>
    "invalid utf-8 sequence of " ++ toString n ++ " bytes from index " ++ toString d.validBytes
  | none => "incomplete utf-8 byte sequence from index " ++ toString d.validBytes

/-- A rule of the file format that the bytes break. -/
inductive Malformation
  | compressedNumber (lead : Nat)
  | compressedToken (value : Nat)
  | text (start : Nat) (damage : TextDamage)
  | noOptionalHeader
  | noRuntimeDirectory
  | addressTooLarge (address : Nat)
  | sectionOverflow (address size : Nat)
  | addressUnmapped (address : Nat)
  | runtimeHeaderSize (found : Nat)
  | metadataAddressZero
  | metadataSizeZero
  | metadataTooLarge (size : Nat)
  | rootSignature (found : Nat)
  | streamCount (found : Nat)
  | streamOverflow (offset size : Nat)
  | streamName (found : String)
  | noTables
  | codedTag (tag : Nat) (kind : CodedKind)
  | blobHeap
  | stringHeapEmpty
  | stringIndex (index : Nat)
  | noTableStream
  | noStringHeap
  | noBlobHeap
  | missingRow (table : TableId) (rid : Nat)
  | nestingCycle (rid : Nat)
  | scopeCycle (rid : Nat)
  | methodWithoutOwner (rid : Nat)
  | attributeProlog (found : Nat)
  | attributeTag (found : Nat)
  | genericInstance (found : Nat)
  | elementType (found : Nat)
deriving DecidableEq, Repr

def Malformation.message : Malformation → String
  | compressedNumber lead => "Invalid compressed uint - " ++ toString lead
  | compressedToken value => "Invalid compressed token - " ++ toString value
  | text start damage =>
    "Invalid UTF-8 string at offset " ++ toString start ++ ": " ++ damage.message
  | noOptionalHeader => "File does not have an OptionalHeader"
  | noRuntimeDirectory => "File does not have a CLR runtime header directory"
  | addressTooLarge address => "RVA too large to fit in u32: " ++ toString address
  | sectionOverflow address size =>
    "Section malformed, causing integer overflow - " ++ toString address ++ " + " ++ toString size
  | addressUnmapped address => "RVA could not be converted to offset - " ++ toString address
  | runtimeHeaderSize found => "Invalid CLR header size: expected 72, got " ++ toString found
  | metadataAddressZero => "Metadata RVA cannot be zero"
  | metadataSizeZero => "Metadata size cannot be zero"
  | metadataTooLarge size =>
    "Metadata size " ++ toString size ++ " exceeds reasonable limit (256MB)"
  | rootSignature found => "CIL_HEADER_MAGIC does not match - " ++ toString found
  | streamCount found => "Invalid stream count - " ++ toString found
  | streamOverflow offset size =>
    "Stream offset and size cause integer overflow - " ++ toString offset ++ " + " ++ toString size
  | streamName found => "Invalid stream header name - " ++ found
  | noTables => "No valid rows in any of the tables"
  | codedTag tag kind => "Invalid tag " ++ toString tag ++ " for coded index " ++ kind.name
  | blobHeap => "Invalid memory for #Blob heap"
  | stringHeapEmpty => "Provided #String heap is empty"
  | stringIndex index => "Invalid string at index - " ++ toString index
  | noTableStream => "Module has no metadata tables stream"
  | noStringHeap => "Module has no #Strings heap"
  | noBlobHeap => "Module has no #Blob heap"
  | missingRow table rid => "Invalid " ++ table.name ++ " row - " ++ toString rid
  | nestingCycle rid => "Nested type cycle at TypeDef " ++ toString rid
  | scopeCycle rid => "TypeRef scope cycle at row " ++ toString rid
  | methodWithoutOwner rid => "MethodDef " ++ toString rid ++ " has no owner"
  | attributeProlog found =>
    "Invalid custom attribute prolog - expected 0x0001, got 0x" ++ Text.hex 4 found
  | attributeTag found => "Invalid custom attribute type tag - 0x" ++ Text.hex 2 found
  | genericInstance found =>
    "GENERICINST - Next byte is not TYPE_CLASS or TYPE_VALUE - " ++ toString found
  | elementType found => "Unsupported ELEMENT_TYPE - " ++ toString found

/-- Why a read or a lookup failed. -/
inductive Fault
  /-- The bytes break a rule of the format. -/
  | malformed (cause : Malformation)
  /-- The bytes end before the value does. -/
  | outOfBounds
  /-- The bytes use a part of the format that is not covered. -/
  | notSupported
  /-- There are no bytes at all. -/
  | empty
  /-- Values nest deeper than the limit. -/
  | recursionLimit (limit : Nat)
  /-- The module failed to open earlier; only whether its file was missing is remembered. -/
  | moduleUnavailable (path : String) ( notFound : Bool)
  /-- The file could not be opened. -/
  | fileUnreadable ( notFound : Bool)
  /-- The opened file has no contents to look at, as a directory. -/
  | fileUnmappable
  /-- The file is no portable executable image. -/
  | imageRejected
deriving DecidableEq, Repr

namespace Fault

/-- Whether the fault means that there is no such file. -/
def isNotFound : Fault → Bool
  | fileUnreadable notFound => notFound
  | moduleUnavailable _ notFound => notFound
  | _ => false

/-- The text of a fault. -/
def message : Fault → String
  | malformed cause => cause.message
  | outOfBounds => "Out of Bound read would have occurred!"
  | notSupported => "This file type is not supported"
  | empty => "Provided input was empty"
  | recursionLimit limit =>
    "Reach the maximum recursion level allowed - " ++ toString limit
  | moduleUnavailable path notFound =>
    "Module " ++ path ++ " is unavailable (not found: " ++ toString notFound ++ ")"
  | fileUnreadable _ => "The file could not be opened"
  | fileUnmappable => "The file could not be mapped"
  | imageRejected => "The file is not a portable executable image"

end Fault
end MethodAtlas
