import MethodAtlas.Module.Basic
import MethodAtlas.Proofs.Bytes.Reads
import MethodAtlas.Proofs.Outcome

/-!
# The metadata root is read back

Where a stream header lies depends on the label of the version and on the names of all headers
before it, which are padded. A root that is laid out at the start of the metadata is read back with
all its headers, whatever follows it. Of a root that is read, whether it was laid out so or not, no
stream leaves the metadata, so that taking one out cannot fail: `MetadataRoot.streams_read_back`.
-/
namespace MethodAtlas

namespace StreamHeader
open Decoder
variable {h : StreamHeader}

/-- The bytes of a name. -/
def label (h : StreamHeader) : List UInt8 := h.name.toByteArray.data.toList

/-- Names are short, hold no zero byte and are told by their bytes. -/
theorem label_spec (hname : h.name ∈ names) :
    h.label.length < nameLimit ∧ (∀ b ∈ h.label, b ≠ 0) ∧ Text.latin1 h.label = h.name := by
  have hall : ∀ name ∈ names, name.toByteArray.data.toList.length < nameLimit ∧
      (∀ b ∈ name.toByteArray.data.toList, b ≠ 0) ∧
      Text.latin1 name.toByteArray.data.toList = name := by decide +kernel
  exact hall h.name hname

theorem length_label (h : StreamHeader) : h.label.length = h.name.utf8ByteSize := by
  rw [label, Array.length_toList, ByteArray.size_data]
  rfl

theorem length_encode (h : StreamHeader) : h.encode.length = h.storedSize := by
  have hencode : h.encode = Bytes.toLE 4 h.offset ++ Bytes.toLE 4 h.size ++ h.label ++
      List.replicate (paddedName h.label.length - h.label.length) 0 := rfl
  have hpadded : h.label.length ≤ paddedName h.label.length := by
    rw [paddedName]
    omega
  rw [hencode, storedSize, ← length_label]
  simp only [List.length_append, Bytes.length_toLE, List.length_replicate]
  omega

/-- Behind the name there is at least one zero byte. -/
theorem exists_encode_eq (h : StreamHeader) : ∃ zeros,
    h.encode = Bytes.toLE 4 h.offset ++ Bytes.toLE 4 h.size ++ (h.label ++ 0 :: zeros) := by
  have hpadding : paddedName h.label.length - h.label.length =
      (paddedName h.label.length - h.label.length - 1) + 1 := by
    rw [paddedName]
    omega
  refine ⟨List.replicate (paddedName h.label.length - h.label.length - 1) 0, ?_⟩
  rw [encode, ← label, hpadding, List.replicate_succ]
  simp

/-- The search for the end of the name stops at its zero byte. -/
theorem takeWhile_lookahead (hname : h.name ∈ names) (rest : List UInt8) :
    (((h.label ++ 0 :: rest).take nameLimit).takeWhile (· ≠ 0)) = h.label := by
  obtain ⟨hlength, hplain, -⟩ := label_spec hname
  obtain ⟨n, hn⟩ := Nat.exists_eq_add_of_lt hlength
  have htake : (h.label ++ 0 :: rest).take nameLimit = h.label ++ 0 :: rest.take n := by
    rw [hn, Nat.add_assoc, List.take_length_add_append, List.take_succ_cons]
  rw [htake, List.takeWhile_append_of_pos (by simpa using hplain),
    List.takeWhile_cons_of_neg (by simp), List.append_nil]

/-- A header is read back in front of its name. -/
theorem reads_decoder (hname : h.name ∈ names) (hoffset : h.offset < 0x100000000)
    (hsize : h.size < 0x100000000) (rest : List UInt8) :
    ReadsBefore (· = h.label ++ 0 :: rest) decoder
      (Bytes.toLE 4 h.offset ++ Bytes.toLE 4 h.size) h := by
  refine .need_bind ?_ ?_
  · rintro after rfl
    simp
    omega
  · refine (Reads.toLE hoffset).bind ((Reads.toLE hsize).bind_nil ?_)
    refine ReadsBefore.bind (.lookahead nameLimit _) ?_ fun _ hafter => hafter
    simp only [takeWhile_lookahead hname, (label_spec hname).2.2, List.contains_iff_mem.mpr hname,
      if_true]
    exact .pure h

end StreamHeader

namespace MetadataRoot
open Decoder
variable {bytes metadata : ByteArray} {root : MetadataRoot} {streams : List StreamHeader}

/-- Metadata that a root is laid out in, with this label for its version. Anything can follow. -/
structure LaidOut (root : MetadataRoot) (label : List UInt8) (metadata : ByteArray) : Prop where
  stored : ∃ rest, metadata.data.toList = encode root.majorVersion root.minorVersion root.reserved
    root.flags label root.streams ++ rest
  signature : root.signature = magic
  majorVersion : root.majorVersion < 0x10000
  minorVersion : root.minorVersion < 0x10000
  reserved : root.reserved < 0x100000000
  versionLength : root.versionLength = label.length
  /-- The version ends at the first zero byte of its label. -/
  version : root.version = Text.latin1 (label.takeWhile (· ≠ 0))
  flags : root.flags < 0x10000
  one_le : 1 ≤ root.streams.length
  le_limit : root.streams.length ≤ streamLimit
  names : ∀ h ∈ root.streams, h.name ∈ StreamHeader.names
  inside : ∀ h ∈ root.streams, h.offset + h.size ≤ metadata.size
  sizeLimit_le : sizeLimit ≤ metadata.size
  size_lt : metadata.size < 0x100000000

theorem checkExtent_eq_ok_iff {h : StreamHeader} :
    checkExtent bytes h = .ok () ↔ h.stop < 0x100000000 ∧ h.stop ≤ bytes.size := by
  rw [checkExtent]
  split
  · simp
    omega
  · split
    · simp
      omega
    · simp
      omega

/-- Headers that follow one another are read back. -/
theorem readStreams_eq (hsize : bytes.size < 0x100000000)
    (hnames : ∀ h ∈ streams, h.name ∈ StreamHeader.names)
    (hinside : ∀ h ∈ streams, h.stop ≤ bytes.size) {offset : Nat} {rest : List UInt8}
    (hahead : (Cursor.ofPosition offset).Ahead bytes
      (streams.flatMap StreamHeader.encode ++ rest)) :
    readStreams bytes streams.length offset = .ok streams := by
  induction streams generalizing offset with
  | nil => rfl
  | cons h streams ih =>
    rw [List.forall_mem_cons] at hnames hinside
    obtain ⟨hname, hnames⟩ := hnames
    obtain ⟨hstop, hinside⟩ := hinside
    rw [List.flatMap_cons, List.append_assoc] at hahead
    have hnext := hahead.advance
    -- The header is read in front of its name, but the next one follows the padded name.
    obtain ⟨zeros, hencode⟩ := h.exists_encode_eq
    have hlabel : h.encode ++ (streams.flatMap StreamHeader.encode ++ rest) =
        Bytes.toLE 4 h.offset ++ Bytes.toLE 4 h.size ++
          (h.label ++ 0 :: (zeros ++ (streams.flatMap StreamHeader.encode ++ rest))) := by
      simp [hencode]
    rw [hlabel] at hahead
    rw [StreamHeader.stop] at hstop
    have hread : StreamHeader.decoder.decodeAt bytes offset = .ok h := by
      rw [decodeAt, StreamHeader.reads_decoder hname (by omega) (by omega) _ rfl hahead]
    have hextent : checkExtent bytes h = .ok () :=
      checkExtent_eq_ok_iff.mpr ⟨Nat.lt_of_le_of_lt hstop hsize, hstop⟩
    have hrest : readStreams bytes streams.length (offset + h.storedSize) = .ok streams :=
      ih hnames hinside (hnext.of_position (by rw [h.length_encode]; rfl))
    rw [List.length_cons, readStreams, hread, Outcome.ok_bind, hextent, Outcome.ok_bind, hrest]
    rfl

/-- No stream of headers that are read leaves the bytes. -/
theorem stop_le_of_readStreams {count offset : Nat}
    (h : readStreams bytes count offset = .ok streams) : ∀ s ∈ streams, s.stop ≤ bytes.size := by
  induction count generalizing offset streams with
  | zero =>
    cases h
    simp
  | succ count ih =>
    obtain ⟨first, -, h⟩ := Outcome.bind_eq_ok.mp h
    obtain ⟨⟨⟩, hextent, h⟩ := Outcome.bind_eq_ok.mp h
    obtain ⟨others, hothers, h⟩ := Outcome.bind_eq_ok.mp h
    cases h
    rw [List.forall_mem_cons]
    exact ⟨(checkExtent_eq_ok_iff.mp hextent).2, ih hothers⟩

/-- The stored form of a root up to its stream headers. -/
def encodePrologue (root : MetadataRoot) (label : List UInt8) : List UInt8 :=
  Bytes.toLE 4 magic ++ (Bytes.toLE 2 root.majorVersion ++ (Bytes.toLE 2 root.minorVersion
    ++ (Bytes.toLE 4 root.reserved ++ (Bytes.toLE 4 label.length ++ (label
    ++ (Bytes.toLE 2 root.flags ++ Bytes.toLE 2 root.streams.length))))))

theorem encode_eq (root : MetadataRoot) (label : List UInt8) :
    encode root.majorVersion root.minorVersion root.reserved root.flags label root.streams =
      root.encodePrologue label ++ root.streams.flatMap StreamHeader.encode := by
  simp [encode, encodePrologue]

/-- The number of headers is told with the rest of the root. -/
theorem reads_prologue {label : List UInt8} (h : root.LaidOut label metadata) :
    ReadsBefore (fun after => (root.encodePrologue label).length + after.length = metadata.size)
      prologue (root.encodePrologue label) ({ root with streams := [] }, root.streams.length) := by
  have hsize := h.size_lt
  obtain ⟨rest, hrest⟩ := h.stored
  have hlength : metadata.size = (root.encodePrologue label).length +
      (root.streams.flatMap StreamHeader.encode ++ rest).length := by
    rw [← ByteArray.size_data, ← Array.length_toList, hrest, encode_eq, List.append_assoc,
      List.length_append]
  have hlabel : label.length < 0x100000000 := by
    have : label.length ≤ (root.encodePrologue label).length := by simp [encodePrologue]; omega
    omega
  have hcount : root.streams.length < 0x10000 := Nat.lt_of_le_of_lt h.le_limit (by decide)
  have hroot : ({ root with streams := [] } : MetadataRoot) = ⟨magic, root.majorVersion,
      root.minorVersion, root.reserved, label.length, Text.latin1 (label.takeWhile (· ≠ 0)),
      root.flags, []⟩ := by
    rw [h.signature, h.versionLength, h.version]
  rw [hroot]
  refine .need_bind (fun after hafter => hafter ▸ h.sizeLimit_le) ?_
  refine (Reads.toLE (by decide : magic < 1 <<< (8 * 4))).bind ?_
  rw [if_neg (by simp)]
  refine (Reads.toLE h.majorVersion).bind ((Reads.toLE h.minorVersion).bind
    ((Reads.toLE h.reserved).bind ((Reads.toLE hlabel).bind ?_)))
  refine .need_bind (fun after _ => by simp) ?_
  exact (Reads.take label).bind ((Reads.toLE h.flags).bind ((Reads.toLE hcount).bind_nil (.pure _)))

/-- A root is read if its prologue is, the number of streams is allowed, and the headers are read
from behind the prologue. -/
theorem ofBytes_eq_ok_iff : ofBytes bytes = .ok root ↔
    ∃ opening count c, prologue.run bytes .start = (.ok (opening, count), c) ∧
      (count ≠ 0 ∧ count ≤ streamLimit ∧ count * 9 ≤ bytes.size) ∧
      readStreams bytes count c.position = .ok root.streams ∧
      root = { opening with streams := root.streams } := by
  rw [ofBytes]
  rcases prologue.run bytes .start with ⟨e | ⟨opening, count⟩, c⟩
  · simp
  · simp only [Prod.mk.injEq, Except.ok.injEq]
    split
    · next hcount =>
      refine iff_of_false (by simp) ?_
      rintro ⟨_, _, _, ⟨⟨rfl, rfl⟩, rfl⟩, hallowed, -⟩
      omega
    · next hcount =>
      constructor
      · intro h
        obtain ⟨streams, hstreams, h⟩ := Outcome.bind_eq_ok.mp h
        cases h
        exact ⟨opening, count, c, ⟨⟨rfl, rfl⟩, rfl⟩, by omega, hstreams, rfl⟩
      · rintro ⟨_, _, _, ⟨⟨rfl, rfl⟩, rfl⟩, -, hstreams, hroot⟩
        rw [hstreams, Outcome.ok_bind, ← hroot]
        rfl

/-- A header takes more than the nine bytes that the limit on their number counts for each. -/
theorem length_mul_le (streams : List StreamHeader) :
    streams.length * 9 ≤ (streams.flatMap StreamHeader.encode).length := by
  induction streams with
  | nil => simp
  | cons h streams ih =>
    have hsize : 12 ≤ h.storedSize := by
      rw [StreamHeader.storedSize, StreamHeader.paddedName]
      omega
    rw [List.flatMap_cons, List.length_append, h.length_encode, List.length_cons]
    omega

/-- A root that is laid out is read back. -/
theorem ofBytes_of_laidOut {label : List UInt8} (h : root.LaidOut label metadata) :
    ofBytes metadata = .ok root := by
  obtain ⟨rest, hrest⟩ := h.stored
  rw [encode_eq, List.append_assoc] at hrest
  have hahead : Cursor.start.Ahead metadata (root.encodePrologue label ++
      (root.streams.flatMap StreamHeader.encode ++ rest)) := ⟨[], hrest, rfl⟩
  have hsize := hahead.size_eq
  simp only [List.length_append] at hsize
  have hprologue := reads_prologue h (by simp [hsize, Cursor.start]) hahead
  have hcount := length_mul_le root.streams
  have hpositive := h.one_le
  have hinside : ∀ s ∈ root.streams, s.stop ≤ metadata.size := h.inside
  have hnext : (Cursor.ofPosition (root.encodePrologue label).length).Ahead metadata
      (root.streams.flatMap StreamHeader.encode ++ rest) :=
    hahead.advance.of_position (Nat.zero_add _).symm
  have hstreams := readStreams_eq h.size_lt h.names hinside hnext
  refine ofBytes_eq_ok_iff.mpr ⟨_, _, _, hprologue, ⟨by omega, h.le_limit, by omega⟩, ?_, rfl⟩
  rw [Cursor.position_advance, Cursor.start, Nat.zero_add]
  exact hstreams

theorem stop_le_of_ofBytes (h : ofBytes metadata = .ok root) :
    ∀ s ∈ root.streams, s.stop ≤ metadata.size := by
  obtain ⟨_, _, _, -, -, hstreams, -⟩ := ofBytes_eq_ok_iff.mp h
  exact stop_le_of_readStreams hstreams

theorem stream?_eq_some_iff {name : String} {h : StreamHeader} :
    root.stream? name = some h ↔ h.name = name ∧ ∃ before after,
      root.streams = before ++ h :: after ∧ ∀ other ∈ before, other.name ≠ name := by
  simp [stream?, List.find?_eq_some_iff_append]

/-- A stream that lies within the metadata is taken out. -/
theorem streamBytes_eq (h : ∀ s ∈ root.streams, s.stop ≤ metadata.size) (name : String) :
    Module.streamBytes metadata root name =
      .ok ((root.stream? name).map fun s => metadata.extract s.offset (s.offset + s.size)) := by
  rw [Module.streamBytes]
  cases hstream : root.stream? name with
  | none => rfl
  | some s =>
    have hstop : s.offset + s.size ≤ metadata.size := h s (List.mem_of_find?_eq_some hstream)
    have htake : (take s.size).decodeAt metadata s.offset =
        .ok (metadata.extract s.offset (s.offset + s.size)) := by
      simp [decodeAt, run, take, Cursor.ofPosition, hstop]
    simp only [htake]
    rfl

/-- A root that is laid out is read back with its headers in order, of which the first of a name
counts. Of a root that is read every stream lies within the metadata, and is taken out as asked. -/
theorem streams_read_back (metadata : ByteArray) (root : MetadataRoot) :
    (∀ label, root.LaidOut label metadata → ofBytes metadata = .ok root ∧
      ∀ name h, root.stream? name = some h ↔ h.name = name ∧ ∃ before after,
        root.streams = before ++ h :: after ∧ ∀ other ∈ before, other.name ≠ name) ∧
    (ofBytes metadata = .ok root →
      (∀ h ∈ root.streams, h.offset + h.size ≤ metadata.size) ∧
      ∀ name, Module.streamBytes metadata root name =
        .ok ((root.stream? name).map fun h => metadata.extract h.offset (h.offset + h.size))) := by
  refine ⟨fun label h => ⟨ofBytes_of_laidOut h, fun name s => stream?_eq_some_iff⟩, fun h => ?_⟩
  exact ⟨stop_le_of_ofBytes h, streamBytes_eq (stop_le_of_ofBytes h)⟩

/-- A label that has a zero byte inside and no padding. -/
def sampleLabel : List UInt8 := [118, 52, 0, 33, 7]

/-- A root with two streams of one name. -/
def sample : MetadataRoot where
  signature := magic
  majorVersion := 1
  minorVersion := 1
  reserved := 0
  versionLength := 5
  version := "v4"
  flags := 2
  streams := [⟨60, 12, "#~"⟩, ⟨0, 72, "#Strings"⟩, ⟨72, 0, "#~"⟩]

/-- Metadata that the root is laid out in, with three bytes behind it. -/
def sampleMetadata : ByteArray :=
  ⟨(encode 1 1 0 2 sampleLabel sample.streams ++ [1, 2, 3]).toArray⟩

theorem streams_read_back_sample : sample.LaidOut sampleLabel sampleMetadata ∧
    ofBytes sampleMetadata = .ok sample ∧ sample.stream? "#~" = some ⟨60, 12, "#~"⟩ ∧
    Module.streamBytes sampleMetadata sample "#~" = .ok (some (sampleMetadata.extract 60 72)) := by
  have hsize : sampleMetadata.size = 72 := by decide +kernel
  have hlaid : sample.LaidOut sampleLabel sampleMetadata := {
    stored := ⟨[1, 2, 3], rfl⟩
    signature := rfl
    majorVersion := by decide
    minorVersion := by decide
    reserved := by decide
    versionLength := rfl
    version := by decide
    flags := by decide
    one_le := by decide
    le_limit := by decide
    names := by decide
    inside := by rw [hsize]; decide
    sizeLimit_le := by rw [hsize]; decide
    size_lt := by rw [hsize]; decide }
  obtain ⟨hback, -⟩ := (streams_read_back sampleMetadata sample).1 sampleLabel hlaid
  have hfirst : sample.stream? "#~" = some ⟨60, 12, "#~"⟩ := by decide
  have hstream := ((streams_read_back sampleMetadata sample).2 hback).2 "#~"
  rw [hfirst] at hstream
  exact ⟨hlaid, hback, hfirst, hstream⟩

end MetadataRoot
end MethodAtlas
