import MethodAtlas.Module.Names
import MethodAtlas.Proofs.Bytes.Reads
import MethodAtlas.Proofs.Outcome
import Mathlib.Control.Monad.Basic

/-!
# What a module is read from

Reading a module takes the file apart: the header and the metadata that the image places, the
streams that the metadata names, and what the tables say of the nesting and the namespaces of the
types. `ofImage_eq_ok_iff` says that a module is read exactly if all its parts are. The sample at
the end is a small file that is read to a known module.
-/
namespace MethodAtlas

/-- What lies between some bytes and others is taken from behind the first. -/
theorem Decoder.decodeAt_take {bytes : ByteArray} {before part after : List UInt8}
    {length position : Nat} (h : bytes.data.toList = before ++ (part ++ after))
    (hposition : before.length = position) (hlength : part.length = length) :
    (take length).decodeAt bytes position = .ok ⟨part.toArray⟩ := by
  subst hlength
  have hahead : (Cursor.ofPosition position).Ahead bytes (part ++ after) := ⟨before, h, hposition⟩
  rw [decodeAt, Reads.take part trivial hahead]

namespace Image

/-- An image whose headers lead to a runtime header is accepted. -/
theorem ofBytes_eq_ok {readHeaders : HeaderReader} {bytes : ByteArray} {h : OptionalHeader}
    {sections : List Section} {runtime : Directory} (hne : bytes.size ≠ 0)
    (hread : readHeaders bytes = some ⟨some h, sections⟩) (hruntime : h.runtime? = some runtime)
    (haddress : runtime.address ≠ 0) (hsize : runtime.size ≠ 0) :
    ofBytes readHeaders bytes = .ok ⟨bytes, sections, runtime⟩ := by
  simp [ofBytes, hne, hread, hruntime, haddress, hsize]

theorem fromFile_of_ok {readHeaders : HeaderReader} {readFile : String → Except Fault ByteArray}
    {path : String} {bytes : ByteArray} (h : readFile path = .ok bytes) :
    fromFile readHeaders readFile path = ofBytes readHeaders bytes := by
  rw [fromFile, h, Outcome.ok_bind]

end Image

namespace Module

/-- A stream that the root names is what lies at its place. -/
theorem streamBytes_eq_some {metadata : ByteArray} {root : MetadataRoot} {name : String}
    {before part after : List UInt8} {header : StreamHeader}
    (hheader : root.stream? name = some header)
    (h : metadata.data.toList = before ++ (part ++ after)) (hoffset : before.length = header.offset)
    (hsize : part.length = header.size) :
    streamBytes metadata root name = .ok (some ⟨part.toArray⟩) := by
  rw [streamBytes, hheader]
  simp only [Decoder.decodeAt_take h hoffset hsize]
  rfl

/-- The nesting and the namespaces of a module say what its tables say. -/
structure Gathered (m : Module) : Prop where
  nesting : m.nesting = .ofList ((m.tables.rowList NestedClass).map (·.record))
  namespaces :
    declareTypes m.strings m.nesting (m.tables.rowList TypeDefinition) .empty = .ok m.namespaces

/-- The image of a module places its header, and the header its metadata. -/
structure Placed (m : Module) (metadata : ByteArray) : Prop where
  header : ∃ offset bytes, m.image.offsetOf m.image.runtime.address = .ok offset ∧
    m.image.slice offset m.image.runtime.size = .ok bytes ∧
    RuntimeHeader.ofBytes bytes = .ok m.header
  metadata : ∃ offset, m.image.offsetOf m.header.metadataAddress = .ok offset ∧
    m.image.slice offset m.header.metadataSize = .ok metadata

/-- The streams that metadata names hold the tables and the heaps of a module. -/
structure Streamed (m : Module) (metadata : ByteArray) : Prop where
  root : MetadataRoot.ofBytes metadata = .ok m.root
  tables : ∃ compact edited bytes, streamBytes metadata m.root "#~" = .ok compact ∧
    streamBytes metadata m.root "#-" = .ok edited ∧ compact.or edited = some bytes ∧
    TableStream.ofBytes bytes = .ok m.tables
  strings : ∃ bytes, streamBytes metadata m.root "#Strings" = .ok (some bytes) ∧
    StringHeap.ofBytes bytes = .ok m.strings
  blobs : ∃ bytes, streamBytes metadata m.root "#Blob" = .ok bytes ∧
    bytes.mapM BlobHeap.ofBytes = .ok m.blobs

/-- A module is read exactly if the image places it, the metadata holds its streams, and its types
are gathered as the tables tell them. -/
theorem ofImage_eq_ok_iff {image : Image} {m : Module} :
    ofImage image = .ok m ↔ m.image = image ∧
      ∃ metadata, m.Placed metadata ∧ m.Streamed metadata ∧ m.Gathered := by
  constructor
  · intro h
    simp only [ofImage, Outcome.bind_eq_ok] at h
    obtain ⟨headerOffset, hheaderOffset, headerBytes, hheaderBytes, header, hheader, rootOffset,
      hrootOffset, metadata, hmetadata, root, hroot, compact, hcompact, edited, hedited, h⟩ := h
    split at h
    · next tableBytes htableBytes =>
      obtain ⟨found, hstringBytes, h⟩ := Outcome.bind_eq_ok.mp h
      split at h
      · next stringBytes =>
        simp only [Outcome.bind_eq_ok] at h
        obtain ⟨tables, htables, strings, hstrings, blobBytes, hblobBytes, h⟩ := h
        have hblobs : ∃ blobs, blobBytes.mapM BlobHeap.ofBytes = .ok blobs ∧
            ∃ namespaces, declareTypes strings
              (.ofList ((tables.rowList NestedClass).map (·.record)))
              (tables.rowList TypeDefinition) .empty = .ok namespaces ∧
            m = ⟨image, header, root, tables, strings, blobs,
              .ofList ((tables.rowList NestedClass).map (·.record)), namespaces⟩ := by
          split at h <;>
          · obtain ⟨blobs, hblobs, h⟩ := Outcome.bind_eq_ok.mp h
            obtain ⟨namespaces, hnamespaces, h⟩ := Outcome.bind_eq_ok.mp h
            cases h
            exact ⟨blobs, hblobs, namespaces, hnamespaces, rfl⟩
        obtain ⟨blobs, hblobs, namespaces, hnamespaces, rfl⟩ := hblobs
        exact ⟨rfl, metadata,
          ⟨⟨headerOffset, headerBytes, hheaderOffset, hheaderBytes, hheader⟩,
            ⟨rootOffset, hrootOffset, hmetadata⟩⟩,
          ⟨hroot, ⟨compact, edited, tableBytes, hcompact, hedited, htableBytes, htables⟩,
            ⟨stringBytes, hstringBytes, hstrings⟩, ⟨blobBytes, hblobBytes, hblobs⟩⟩,
          ⟨rfl, hnamespaces⟩⟩
      · cases h
    · cases h
  · rintro ⟨rfl, metadata, hplaced, hstreamed, hgathered⟩
    obtain ⟨⟨headerOffset, headerBytes, hheaderOffset, hheaderBytes, hheader⟩,
      ⟨rootOffset, hrootOffset, hmetadata⟩⟩ := hplaced
    obtain ⟨hroot, ⟨compact, edited, tableBytes, hcompact, hedited, htableBytes, htables⟩,
      ⟨stringBytes, hstringBytes, hstrings⟩, ⟨blobBytes, hblobBytes, hblobs⟩⟩ := hstreamed
    have hnamespaces := hgathered.namespaces
    rw [hgathered.nesting] at hnamespaces
    simp only [ofImage, hheaderOffset, hheaderBytes, hheader, hrootOffset, hmetadata, hroot,
      hcompact, hedited, htableBytes, hstringBytes, htables, hstrings, hblobBytes,
      Outcome.ok_bind]
    have hrest : (blobBytes.mapM BlobHeap.ofBytes >>= fun blobs =>
        declareTypes m.strings (.ofList ((m.tables.rowList NestedClass).map (·.record)))
          (m.tables.rowList TypeDefinition) .empty >>= fun namespaces =>
        (.ok ⟨m.image, m.header, m.root, m.tables, m.strings, blobs,
          .ofList ((m.tables.rowList NestedClass).map (·.record)), namespaces⟩ :
          Except Fault Module)) = .ok m := by
      rw [hblobs, Outcome.ok_bind, hnamespaces, Outcome.ok_bind, ← hgathered.nesting]
    cases blobBytes <;> exact hrest

end Module

/-!
### A sample

A file that refers to two assemblies, `Base` and `base`, and defines three types: `N.T` with a
public method `Go`, `N.Y` that extends the base type of all markers, and `N.Y+Inner` that extends
`N.T` of `base`. The method carries an attribute of `N.X` of `Base` and one of `N.Y` of `base`.
-/

namespace Sample

def typeReferences : List TypeReference :=
  [⟨⟨.assemblyRef, 1⟩, 5, 1⟩, ⟨⟨.assemblyRef, 2⟩, 7, 1⟩, ⟨⟨.typeRef, 2⟩, 9, 0⟩,
    ⟨⟨.assemblyRef, 2⟩, 3, 1⟩, ⟨⟨.module, 0⟩, 41, 34⟩, ⟨⟨.module, 0⟩, 78, 46⟩]

def typeDefinitions : List TypeDefinition :=
  [⟨0, 3, 1, ⟨.typeDef, 0⟩, 1, 1⟩, ⟨0, 7, 1, ⟨.typeRef, 6⟩, 1, 2⟩, ⟨0, 9, 0, ⟨.typeRef, 4⟩, 1, 2⟩]

def methods : List MethodDefinition := [⟨0, 0, 6, 15, 0, 1⟩]

def members : List MemberReference := [⟨⟨.typeRef, 1⟩, 18, 1⟩, ⟨⟨.typeRef, 2⟩, 18, 1⟩]

def attributes : List CustomAttribute :=
  [⟨⟨.methodDef, 1⟩, ⟨.memberRef, 1⟩, 7⟩, ⟨⟨.methodDef, 1⟩, ⟨.memberRef, 2⟩, 7⟩]

def assemblies : List AssemblyReference :=
  [⟨0, 0, 0, 0, 0, 0, 24, 0, 0⟩, ⟨0, 0, 0, 0, 0, 0, 29, 0, 0⟩]

def nestedClasses : List NestedClass := [⟨3, 2⟩]

def rowCount? : TableId → Option Nat
  | .typeRef => some 6
  | .typeDef => some 3
  | .methodDef => some 1
  | .memberRef => some 2
  | .customAttribute => some 2
  | .assemblyRef => some 2
  | .nestedClass => some 1
  | _ => none

def layout : Layout := ⟨TableId.all.map rowCount?, false, false, false, 52⟩

/-- The bytes of a table with these records. -/
def stored {α : Type} [Record α] (records : List α) : ByteArray :=
  ⟨(records.flatMap layout.encodeRecord).toArray⟩

def tables : TableStream where
  majorVersion := 2
  minorVersion := 0
  valid := 0x20800001446
  sorted := 0
  layout := layout
  slices := [(.typeRef, stored typeReferences), (.typeDef, stored typeDefinitions),
    (.methodDef, stored methods), (.memberRef, stored members),
    (.customAttribute, stored attributes), (.assemblyRef, stored assemblies),
    (.nestedClass, stored nestedClasses)]

def tableBytes : List UInt8 :=
  [0, 0, 0, 0, 2, 0, 0, 1] ++ Bytes.toLE 8 tables.valid ++ Bytes.toLE 8 tables.sorted
    ++ (layout.rowCounts.filterMap id).flatMap (Bytes.toLE 4)
    ++ tables.slices.flatMap fun (_, bytes) => bytes.data.toList

def strings : StringHeap where
  bytes := ⟨(StringHeap.encode ["N", "T", "X", "Y", "Inner", "Go", ".ctor", "Base", "base",
    "System", "Type", "System.Runtime.CompilerServices", "StateMachineAttribute"]).toArray⟩
  startsEmpty := by decide +kernel

/-- The signature of a constructor that takes a type, and arguments that name `N.T+Go`. -/
def blobs : BlobHeap where
  bytes := ⟨(BlobHeap.encode [[0x20, 1, 1, 0x12, 21],
    [1, 0, 6, 78, 46, 84, 43, 71, 111, 0, 0]]).toArray⟩
  startsEmpty := by decide +kernel

def root : MetadataRoot where
  signature := MetadataRoot.magic
  majorVersion := 1
  minorVersion := 1
  reserved := 0
  versionLength := 4
  version := "v4"
  flags := 0
  streams := [⟨72, 212, "#~"⟩, ⟨284, 100, "#Strings"⟩, ⟨384, 19, "#Blob"⟩]

def rootBytes : List UInt8 := MetadataRoot.encode 1 1 0 0 [118, 52, 0, 0] root.streams

def metadata : List UInt8 :=
  rootBytes ++ (tableBytes ++ (strings.bytes.data.toList ++ blobs.bytes.data.toList))

def header : RuntimeHeader := ⟨72, 2, 5, 0x2048, 403, 1, 0⟩

def headerBytes : List UInt8 :=
  Bytes.toLE 4 72 ++ Bytes.toLE 2 2 ++ Bytes.toLE 2 5 ++ Bytes.toLE 4 0x2048 ++ Bytes.toLE 4 403
    ++ Bytes.toLE 4 1 ++ List.replicate 52 0

def optional : OptionalHeader := ⟨0x200, List.replicate 14 ⟨0, 0⟩ ++ [⟨0x2000, 72⟩]⟩

/-- The headers up to the only section, which maps the rest of the file. -/
def imageBytes : List UInt8 :=
  [0x4D, 0x5A] ++ List.replicate 58 0 ++ [0x40, 0, 0, 0]
    ++ [0x50, 0x45, 0, 0, 0x4C, 1, 1, 0] ++ List.replicate 12 0 ++ [216, 0, 2, 0x21]
    ++ [0x0B, 1] ++ List.replicate 34 0 ++ [0, 2, 0, 0] ++ List.replicate 52 0 ++ [15, 0, 0, 0]
    ++ List.replicate 112 0 ++ Bytes.toLE 4 0x2000 ++ Bytes.toLE 4 72
    ++ List.replicate 8 0 ++ Bytes.toLE 4 475 ++ Bytes.toLE 4 0x2000 ++ Bytes.toLE 4 475
    ++ Bytes.toLE 4 344 ++ List.replicate 16 0

/-- The file. -/
def bytes : ByteArray := ⟨(imageBytes ++ (headerBytes ++ metadata)).toArray⟩

def image : Image := ⟨bytes, [⟨475, 0x2000, 475, 344⟩], ⟨0x2000, 72⟩⟩

/-- What the file is read to. -/
def module : Module where
  image := image
  header := header
  root := root
  tables := tables
  strings := strings
  blobs := some blobs
  nesting := .ofList nestedClasses
  namespaces := ⟨#[⟨"", #[1], #[]⟩, ⟨"N", #[], #[1, 2]⟩]⟩

/-- The bytes of other tables, in the form that those of the sample have. -/
def contentOf (t : TableStream) : List UInt8 :=
  [0, 0, 0, 0, 2, 0, 0, 1] ++ Bytes.toLE 8 t.valid ++ Bytes.toLE 8 t.sorted
    ++ (t.layout.rowCounts.filterMap id).flatMap (Bytes.toLE 4)
    ++ t.slices.flatMap fun (_, bytes) => bytes.data.toList

/-- The metadata with other tables and names. -/
def metadataWith (t : TableStream) (names : StringHeap) : List UInt8 :=
  rootBytes ++ (contentOf t ++ (names.bytes.data.toList ++ blobs.bytes.data.toList))

/-- The file with other tables and names. -/
def bytesWith (t : TableStream) (names : StringHeap) : ByteArray :=
  ⟨(imageBytes ++ (headerBytes ++ metadataWith t names)).toArray⟩

/-- The module with other tables and names, and with what they say of the nesting and the
namespaces. -/
def moduleWith (t : TableStream) (names : StringHeap) (nesting : Nesting)
    (namespaces : NamespaceTree) : Module :=
  { module with
    image := { image with bytes := bytesWith t names }
    tables := t
    strings := names
    nesting
    namespaces }

/-- Addresses are found wherever the sections are those of the sample. -/
theorem offsetOf_with (content : ByteArray) :
    ({ image with bytes := content } : Image).offsetOf 0x2000 = .ok 344 ∧
      ({ image with bytes := content } : Image).offsetOf 0x2048 = .ok 416 := by
  have hsections : Image.offsetIn 0x2000 image.sections = .ok 344 ∧
      Image.offsetIn 0x2048 image.sections = .ok 416 := by decide +kernel
  rw [Image.offsetOf, Image.offsetOf, if_neg (by decide), if_neg (by decide)]
  exact hsections

section
variable {t : TableStream} {names : StringHeap} {nesting : Nesting} {namespaces : NamespaceTree}
  (hlength : (contentOf t).length = 212) (hnames : names.bytes.data.toList.length = 100)
include hlength hnames

theorem placed :
    (moduleWith t names nesting namespaces).Placed ⟨(metadataWith t names).toArray⟩ where
  header := by
    have hfile : (bytesWith t names).data.toList =
        imageBytes ++ (headerBytes ++ metadataWith t names) := rfl
    have hsize : headerBytes.length = 72 := by decide +kernel
    have hheader : RuntimeHeader.ofBytes ⟨headerBytes.toArray⟩ = .ok header := by decide +kernel
    exact ⟨344, ⟨headerBytes.toArray⟩, (offsetOf_with _).1,
      Decoder.decodeAt_take hfile (by decide +kernel) hsize, hheader⟩
  metadata := by
    have hfile : (bytesWith t names).data.toList =
        (imageBytes ++ headerBytes) ++ (metadataWith t names ++ []) := by
      rw [List.append_nil, List.append_assoc]
      rfl
    have hsize : (metadataWith t names).length = 403 := by
      rw [metadataWith, List.length_append, List.length_append, List.length_append, hlength, hnames]
      decide +kernel
    exact ⟨416, (offsetOf_with _).2, Decoder.decodeAt_take hfile (by decide +kernel) hsize⟩

theorem streamed (hroot : MetadataRoot.ofBytes ⟨(metadataWith t names).toArray⟩ = .ok root)
    (htables : TableStream.ofBytes ⟨(contentOf t).toArray⟩ = .ok t) :
    (moduleWith t names nesting namespaces).Streamed ⟨(metadataWith t names).toArray⟩ where
  root := hroot
  tables := by
    have hplace : rootBytes.length = 72 := by decide +kernel
    exact ⟨some ⟨(contentOf t).toArray⟩, none, ⟨(contentOf t).toArray⟩,
      Module.streamBytes_eq_some rfl rfl hplace hlength, rfl, rfl, htables⟩
  strings := by
    have hmetadata : metadataWith t names = (rootBytes ++ contentOf t) ++
        (names.bytes.data.toList ++ blobs.bytes.data.toList) := by
      rw [List.append_assoc]
      rfl
    have hplace : (rootBytes ++ contentOf t).length = 284 := by
      rw [List.length_append, hlength]
      decide +kernel
    exact ⟨names.bytes, Module.streamBytes_eq_some rfl hmetadata hplace hnames,
      dif_pos names.startsEmpty⟩
  blobs := by
    have hmetadata : metadataWith t names =
        (rootBytes ++ contentOf t ++ names.bytes.data.toList) ++
          (blobs.bytes.data.toList ++ []) := by
      rw [List.append_nil, List.append_assoc, List.append_assoc]
      rfl
    have hplace : (rootBytes ++ contentOf t ++ names.bytes.data.toList).length = 384 := by
      rw [List.length_append, List.length_append, hlength, hnames]
      decide +kernel
    have hsize : blobs.bytes.data.toList.length = 19 := by decide +kernel
    have hblobs : (some blobs.bytes).mapM BlobHeap.ofBytes = .ok (some blobs) := by decide +kernel
    exact ⟨some blobs.bytes, Module.streamBytes_eq_some rfl hmetadata hplace hsize, hblobs⟩

/-- The file with other tables and names is read to the module with these. -/
theorem ofBytes_bytesWith
    (hheaders : ImageHeaders.read? (bytesWith t names) = some ⟨some optional, image.sections⟩)
    (hroot : MetadataRoot.ofBytes ⟨(metadataWith t names).toArray⟩ = .ok root)
    (htables : TableStream.ofBytes ⟨(contentOf t).toArray⟩ = .ok t)
    (hgathered : (moduleWith t names nesting namespaces).Gathered) :
    Module.ofBytes ImageHeaders.read? (bytesWith t names) =
      .ok (moduleWith t names nesting namespaces) := by
  have hruntime : optional.runtime? = some image.runtime := by decide +kernel
  have hne : (bytesWith t names).size ≠ 0 := by
    have hstart : imageBytes.length = 344 := by decide +kernel
    have hsize : (bytesWith t names).size =
        (imageBytes ++ (headerBytes ++ metadataWith t names)).length := rfl
    rw [hsize, List.length_append, hstart]
    omega
  have himage : Image.ofBytes ImageHeaders.read? (bytesWith t names) =
      .ok { image with bytes := bytesWith t names } :=
    Image.ofBytes_eq_ok hne hheaders hruntime (by decide) (by decide)
  rw [Module.ofBytes, himage, Outcome.ok_bind]
  exact Module.ofImage_eq_ok_iff.mpr
    ⟨rfl, _, placed hlength hnames, streamed hlength hnames hroot htables, hgathered⟩

end

/-- The sizes of the tables and of the names, and what the tables are read to. -/
theorem sizes_and_ofBytes : (contentOf tables).length = 212 ∧
    strings.bytes.data.toList.length = 100 ∧
    TableStream.ofBytes ⟨(contentOf tables).toArray⟩ = .ok tables := by
  decide +kernel

theorem gathered : module.Gathered where
  nesting := by
    have hrows : module.tables.rowList NestedClass = [⟨1, 0, ⟨3, 2⟩⟩] := by decide +kernel
    rw [hrows]
    rfl
  namespaces := by decide +kernel

/-- The file is read to the module. -/
theorem ofBytes_eq : Module.ofBytes ImageHeaders.read? bytes = .ok module := by
  obtain ⟨hlength, hnames, htables⟩ := sizes_and_ofBytes
  exact ofBytes_bytesWith hlength hnames (by decide +kernel) (by decide +kernel) htables gathered

theorem isSome_row_typeDefinition (rid : Nat) (h1 : 1 ≤ rid) (h2 : rid ≤ module.rowCount .typeDef) :
    (module.row TypeDefinition rid).isSome := by
  have hrows : ∀ rid ∈ List.range' 1 3, (module.row TypeDefinition rid).isSome := by decide +kernel
  have hcount : module.rowCount .typeDef = 3 := by decide +kernel
  exact hrows rid (List.mem_range'_1.mpr ⟨h1, by omega⟩)

example : [1, 2, 3].map module.typeFullName = [.ok "N.T", .ok "N.Y", .ok "N.Y+Inner"] := by
  decide +kernel

end Sample
end MethodAtlas
