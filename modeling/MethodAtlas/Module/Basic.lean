import MethodAtlas.Heap.Basic
import MethodAtlas.Image.Basic
import MethodAtlas.Metadata.Root
import MethodAtlas.Metadata.RuntimeHeader
import MethodAtlas.Module.Nesting
import MethodAtlas.Name.TypeName
import MethodAtlas.Table.Stream

/-!
# Modules

A managed image together with its metadata: the tables, the heaps they refer to, and the nesting
and the namespaces of its types, which are gathered when the module is read.
-/
namespace MethodAtlas

/-- A module that has been read. -/
structure Module where
  image : Image
  header : RuntimeHeader
  root : MetadataRoot
  tables : TableStream
  strings : StringHeap
  /-- The heap of signatures and attribute values, which a module can lack. -/
  blobs : Option BlobHeap
  nesting : Nesting
  namespaces : NamespaceTree

namespace Module

/-- The bytes of a stream, if the metadata has one of that name. -/
def streamBytes (metadata : ByteArray) (root : MetadataRoot) (name : String) :
    Except Fault (Option ByteArray) :=
  match root.stream? name with
  | none => .ok none
  | some h => ((Decoder.take h.size).decodeAt metadata h.offset).map some

/-- Declares the types that are not nested in their namespaces, in the order of their rows. -/
def declareTypes (strings : StringHeap) (nesting : Nesting) :
    List (Row TypeDefinition) → NamespaceTree → Except Fault NamespaceTree
  | [], tree => .ok tree
  | row :: rows, tree =>
    if (nesting.enclosing? row.rid).isSome then declareTypes strings nesting rows tree
    else
      match strings.get row.record.namespaceName with
      | .error e => .error e
      | .ok ns => declareTypes strings nesting rows (tree.insert ns row.rid)

/-- Reads the metadata that the runtime header of an image leads to. -/
def ofImage (image : Image) : Except Fault Module := do
  let headerOffset ← image.offsetOf image.runtime.address
  let headerBytes ← image.slice headerOffset image.runtime.size
  let header ← RuntimeHeader.ofBytes headerBytes
  let rootOffset ← image.offsetOf header.metadataAddress
  let metadata ← image.slice rootOffset header.metadataSize
  let root ← MetadataRoot.ofBytes metadata
  let compact ← streamBytes metadata root "#~"
  let edited ← streamBytes metadata root "#-"
  let some tableBytes := compact.or edited | .error (.malformed .noTableStream)
  let some stringBytes ← streamBytes metadata root "#Strings" | .error (.malformed .noStringHeap)
  let tables ← TableStream.ofBytes tableBytes
  let strings ← StringHeap.ofBytes stringBytes
  let blobs ←
    match ← streamBytes metadata root "#Blob" with
    | none => pure none
    | some bytes => some <$> BlobHeap.ofBytes bytes
  let nesting := Nesting.ofList ((tables.rowList NestedClass).map (·.record))
  let namespaces ← declareTypes strings nesting (tables.rowList TypeDefinition) .empty
  pure { image, header, root, tables, strings, blobs, nesting, namespaces }

/-- Reads a module from the bytes of its file. -/
def ofBytes (readHeaders : HeaderReader) (bytes : ByteArray) : Except Fault Module := do
  let image ← Image.ofBytes readHeaders bytes
  ofImage image

/-- The length of the file. -/
def size (m : Module) : Nat := m.image.size

/-- A table, if it has rows. -/
def table (m : Module) (α : Type) [Record α] : Option (Table α) := m.tables.table α

/-- A row, if it is there and can be read. -/
def row (m : Module) (α : Type) [Record α] (rid : Nat) : Option (Row α) := m.tables.row α rid

/-- A row that has to be there. -/
def needRow (m : Module) (α : Type) [Record α] (rid : Nat) : Except Fault (Row α) :=
  match m.row α rid with
  | some row => .ok row
  | none => .error (.malformed (.missingRow (Record.table α) rid))

/-- The number of rows of a table. -/
def rowCount (m : Module) (t : TableId) : Nat := m.tables.rows t

/-- A name from the string heap. -/
def string (m : Module) (index : Nat) : Except Fault String := m.strings.get index

/-- A signature or an attribute value from the blob heap. -/
def blob (m : Module) (index : Nat) : Except Fault ByteArray :=
  match m.blobs with
  | some heap => heap.get index
  | none => .error (.malformed .noBlobHeap)

/-- The type that encloses a nested type. -/
def enclosing? (m : Module) (rid : Nat) : Option Nat := m.nesting.enclosing? rid

/-- The types that lie directly in a type, in the order of their rows. -/
def nestedTypes (m : Module) (rid : Nat) : List Nat := m.nesting.members rid

end Module
end MethodAtlas
