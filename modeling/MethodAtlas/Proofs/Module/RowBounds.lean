import MethodAtlas.Proofs.Metadata.RoundTrip
import MethodAtlas.Proofs.Module.Reading
import MethodAtlas.Proofs.Table.Acceptance

/-!
# Row numbers are small

Metadata that is accepted has at most `RuntimeHeader.metadataLimit` bytes, the tables lie in one of
its streams, and no row takes less than two bytes, however narrow its columns are
(`Layout.two_le_rowSize`). So a module that is read has few rows, whatever these store, and what is
added to their numbers or multiplied with them fits in 32 bits: `Module.rowsFit_of_ofImage`.
-/
namespace MethodAtlas

/-- The fewest bytes that a column takes. -/
def Column.leastWidth : Column → Nat
  | .fixed bytes => bytes
  | _ => 2

theorem two_le_indexBytes (bits : Nat) : 2 ≤ indexBytes bits := by
  rw [indexBytes]
  split <;> decide

namespace Layout
variable (l : Layout)

theorem leastWidth_le_width (c : Column) : c.leastWidth ≤ l.width c := by
  have hheap (wide : Bool) : 2 ≤ if wide then 4 else 2 := by cases wide <;> decide
  cases c with
  | fixed bytes => exact Nat.le_refl _
  | string => exact hheap l.wideStrings
  | guid => exact hheap l.wideGuids
  | blob => exact hheap l.wideBlobs
  | row t => exact two_le_indexBytes _
  | coded k => exact two_le_indexBytes _

theorem total_leastWidth_le_size (cs : List Column) :
    total Column.leastWidth cs ≤ Cells.size l.width cs := by
  induction cs with
  | nil => exact Nat.le_refl _
  | cons c cs ih => exact Nat.add_le_add (l.leastWidth_le_width c) ih

/-- No row is shorter than two bytes. -/
theorem two_le_rowSize (t : TableId) : 2 ≤ l.rowSize t := by
  have hleast : 2 ≤ total Column.leastWidth t.columns := by cases t <;> decide
  exact Nat.le_trans hleast (l.total_leastWidth_le_size t.columns)

end Layout

/-- Larger metadata than the limit is not accepted. -/
theorem RuntimeHeader.metadataSize_le {bytes : ByteArray} {h : RuntimeHeader}
    (hread : ofBytes bytes = .ok h) : h.metadataSize ≤ metadataLimit := by
  have hrun : decoder.run bytes .start = (.ok h, (decoder.run bytes .start).2) :=
    Prod.ext hread rfl
  obtain ⟨_, _, -, hrun⟩ := Decoder.run_bind_eq_ok hrun
  obtain ⟨size, _, -, hrun⟩ := Decoder.run_bind_eq_ok hrun
  split at hrun
  · cases hrun
  obtain ⟨major, _, -, hrun⟩ := Decoder.run_bind_eq_ok hrun
  obtain ⟨minor, _, -, hrun⟩ := Decoder.run_bind_eq_ok hrun
  obtain ⟨address, _, -, hrun⟩ := Decoder.run_bind_eq_ok hrun
  split at hrun
  · cases hrun
  obtain ⟨metadataSize, _, -, hrun⟩ := Decoder.run_bind_eq_ok hrun
  split at hrun
  · cases hrun
  split at hrun
  · cases hrun
  · next hlimit =>
    obtain ⟨flags, _, -, hrun⟩ := Decoder.run_bind_eq_ok hrun
    obtain ⟨entryPoint, _, -, hrun⟩ := Decoder.run_bind_eq_ok hrun
    cases hrun
    exact Nat.not_lt.mp hlimit

/-- A part of a file is as long as was asked for. -/
theorem Image.size_of_slice {image : Image} {offset length : Nat} {part : ByteArray}
    (h : image.slice offset length = .ok part) : part.size = length := by
  rw [slice, Decoder.decodeAt, Decoder.run_take] at h
  split at h
  · next hfit =>
    cases h
    rw [ByteArray.size_extract, Nat.min_eq_left hfit, Nat.add_sub_cancel_left]
  · cases h

namespace Module
variable {m : Module}

/-- The tables are read from a stream that lies within the metadata. -/
theorem Streamed.exists_stream {metadata : ByteArray} (h : m.Streamed metadata) :
    ∃ s ∈ m.root.streams, (s.name = "#~" ∨ s.name = "#-") ∧
      s.offset + s.size ≤ metadata.size ∧
      TableStream.ofBytes (metadata.extract s.offset (s.offset + s.size)) = .ok m.tables := by
  have hstop := MetadataRoot.stop_le_of_ofBytes h.root
  obtain ⟨compact, edited, bytes, hcompact, hedited, hbytes, htables⟩ := h.tables
  have hfound (name : String)
      (hname : streamBytes metadata m.root name = .ok (some bytes)) :
      ∃ s ∈ m.root.streams, s.name = name ∧ s.offset + s.size ≤ metadata.size ∧
        TableStream.ofBytes (metadata.extract s.offset (s.offset + s.size)) = .ok m.tables := by
    rw [MetadataRoot.streamBytes_eq hstop] at hname
    obtain ⟨s, hs, rfl⟩ := Option.map_eq_some_iff.mp (Except.ok.inj hname)
    have hmem : s ∈ m.root.streams := List.mem_of_find?_eq_some hs
    exact ⟨s, hmem, (MetadataRoot.stream?_eq_some_iff.mp hs).1, hstop s hmem, htables⟩
  cases compact with
  | some bytes' =>
    cases hbytes
    obtain ⟨s, hmem, hname, hrest⟩ := hfound "#~" hcompact
    exact ⟨s, hmem, .inl hname, hrest⟩
  | none =>
    rw [Option.none_or] at hbytes
    obtain ⟨s, hmem, hname, hrest⟩ := hfound "#-" (hbytes ▸ hedited)
    exact ⟨s, hmem, .inr hname, hrest⟩

/-- The tables of a module lie in a stream of its metadata, which is not too large. -/
structure RowsWithin (m : Module) : Prop where
  metadata : m.header.metadataSize ≤ RuntimeHeader.metadataLimit
  stream : ∃ s ∈ m.root.streams, (s.name = "#~" ∨ s.name = "#-") ∧
    s.offset + s.size ≤ m.header.metadataSize ∧ ∀ t, m.rowCount t ≠ 0 →
      m.tables.layout.tablePlace t + m.rowCount t * m.tables.layout.rowSize t ≤ s.size

theorem rowsWithin_of_ofImage {image : Image} (h : ofImage image = .ok m) : m.RowsWithin where
  metadata := by
    obtain ⟨-, metadata, hplaced, -, -⟩ := ofImage_eq_ok_iff.mp h
    obtain ⟨_, _, -, -, hheader⟩ := hplaced.header
    exact RuntimeHeader.metadataSize_le hheader
  stream := by
    obtain ⟨-, metadata, hplaced, hstreamed, -⟩ := ofImage_eq_ok_iff.mp h
    obtain ⟨_, -, hslice⟩ := hplaced.metadata
    obtain ⟨s, hmem, hname, hstop, htables⟩ := hstreamed.exists_stream
    have hlength : (metadata.extract s.offset (s.offset + s.size)).size = s.size := by
      rw [ByteArray.size_extract, Nat.min_eq_left hstop, Nat.add_sub_cancel_left]
    rw [Image.size_of_slice hslice] at hstop
    exact ⟨s, hmem, hname, hstop, fun t ht =>
      hlength ▸ TableStream.tablePlace_add_le htables ht⟩

namespace RowsWithin

theorem size_le (h : m.RowsWithin) (t : TableId) :
    m.rowCount t * m.tables.layout.rowSize t ≤ m.header.metadataSize := by
  obtain ⟨s, -, -, hstop, hplace⟩ := h.stream
  by_cases ht : m.rowCount t = 0
  · rw [ht, Nat.zero_mul]
    exact Nat.zero_le _
  · have hsize := Nat.le_of_add_left_le (hplace t ht)
    exact Nat.le_trans hsize (Nat.le_of_add_left_le hstop)

/-- Rows of two bytes and more leave room for few of them. -/
theorem rowCount_lt (h : m.RowsWithin) (t : TableId) : m.rowCount t < 0x10000000 := by
  have hlimit : m.header.metadataSize ≤ 0x10000000 := h.metadata
  have htwo := Nat.mul_le_mul_left (m.rowCount t) (m.tables.layout.two_le_rowSize t)
  have hsize := h.size_le t
  omega

end RowsWithin

/-- The rows of a module lie within its metadata, and their numbers leave room in 32 bits. -/
structure RowsFit (m : Module) : Prop extends m.RowsWithin where
  count : ∀ t, m.rowCount t < 0x10000000
  size : ∀ t, m.rowCount t * m.tables.layout.rowSize t ≤ m.header.metadataSize
  /-- The number behind that of a row, the token of a row, and where a row ends in its table. -/
  number : ∀ t rid, 1 ≤ rid → rid ≤ m.rowCount t →
    rid + 1 < 0x100000000 ∧ t.number * 0x1000000 + rid < 0x100000000 ∧
    (rid - 1) * m.tables.layout.rowSize t + m.tables.layout.rowSize t ≤ m.header.metadataSize
  /-- What tables say of their rows. -/
  table : ∀ (α : Type) [Record α] t, m.table α = some t →
    t.rowCount + 1 < 0x100000000 ∧ t.size ≤ m.header.metadataSize
  /-- What rows say of themselves. -/
  row : ∀ (α : Type) [Record α] rid row, m.row α rid = some row → row.rid = rid ∧
    row.rid + 1 < 0x100000000 ∧ row.token.value < 0x100000000 ∧
    row.offset + m.tables.layout.rowSize (Record.table α) ≤ m.header.metadataSize

/-- **Row numbers do not wrap.** In a module that is read every table has fewer than `2 ^ 28` rows,
all of them within the metadata. So the number behind the last row, the number behind that of a row,
the token of a row and the places of rows all fit in 32 bits, whatever the rows store. -/
theorem rowsFit_of_ofImage {image : Image} (h : ofImage image = .ok m) : m.RowsFit := by
  have hwithin := rowsWithin_of_ofImage h
  have hnumber (t : TableId) (rid : Nat) (h1 : 1 ≤ rid) (h2 : rid ≤ m.rowCount t) :
      rid + 1 < 0x100000000 ∧ t.number * 0x1000000 + rid < 0x100000000 ∧
      (rid - 1) * m.tables.layout.rowSize t + m.tables.layout.rowSize t ≤
        m.header.metadataSize := by
    have hcount := hwithin.rowCount_lt t
    have htable : t.number < 45 := t.number_lt
    exact ⟨by omega, by omega, Nat.le_trans (rowEnd_le h1 h2) (hwithin.size_le t)⟩
  refine ⟨hwithin, hwithin.rowCount_lt, hwithin.size_le, hnumber, ?_, ?_⟩
  · intro α _ t ht
    obtain ⟨hrows, hlayout⟩ := m.tables.parts_of_table ht
    have hcount : m.tables.rows (Record.table α) < 0x10000000 := hwithin.rowCount_lt _
    rw [Table.size, Table.rowSize, hrows, hlayout]
    exact ⟨by omega, hwithin.size_le _⟩
  · intro α _ rid row hrow
    obtain ⟨t, ht, hget⟩ := Option.bind_eq_some_iff.mp hrow
    obtain ⟨rfl, h1, h2⟩ := m.tables.rid_of_row hrow
    obtain ⟨hnext, htoken, hend⟩ := hnumber _ _ h1 h2
    rw [t.offset_of_get hget, Table.rowSize, (m.tables.parts_of_table ht).2]
    exact ⟨rfl, hnext, htoken, hend⟩

theorem rowsFit_of_ofImage_sample : ofImage Sample.image = .ok Sample.module ∧
    Sample.module.rowCount .typeRef = 6 ∧ Sample.module.RowsFit := by
  obtain ⟨image, -, hread⟩ := Outcome.bind_eq_ok.mp Sample.ofBytes_eq
  obtain rfl : Sample.module.image = image := (ofImage_eq_ok_iff.mp hread).1
  exact ⟨hread, rfl, rowsFit_of_ofImage hread⟩

end Module
end MethodAtlas
