import Mathlib.Data.List.Basic
import MethodAtlas.Proofs.Bytes.Reads
import MethodAtlas.Proofs.Outcome
import MethodAtlas.Proofs.Table.Rows

/-!
# Tables are read back

A stream of tables is read back from its stored form, whatever follows it: the header
(`StoredTables.reads_header`) and the row counts (`StoredTables.ofBytes_layout`), the bytes of each
table (`StoredTables.sliceTables_eq`) and, in them, each row (`StoredTables.run_row`). Where a row
lies depends on the widths of all columns in front of it, so that everything rests on
`StoredTables.width_layout`.
-/
namespace MethodAtlas

namespace Column

@[simp] theorem length_write (bytes : Nat) (c : Column) (v : c.Value) :
    (c.write bytes v).length = bytes := by
  cases c <;> exact Bytes.length_toLE ..

end Column

namespace Cells

theorem length_write (width : Column → Nat) (cs : List Column) (vs : Cells cs) :
    (write width cs vs).length = size width cs := by
  induction cs with
  | nil => rfl
  | cons c cs ih =>
    obtain ⟨v, vs⟩ := vs
    rw [write, List.length_append, Column.length_write, ih, size]

end Cells

namespace Decoder.Reads
variable {l : Layout}

/-- A value that fits its column is read back. -/
theorem readCell {c : Column} {v : c.Value} (hv : c.Fits (l.width c) v) :
    Reads (l.readCell c) (c.write (l.width c) v) v := by
  cases c with
  | coded k =>
    obtain ⟨value, hencode, hfits⟩ := hv
    rw [Column.write, hencode, Option.getD_some]
    refine (toLE hfits).bind_nil ?_
    rw [CodedKind.decode?_of_encode? hencode]
    exact .pure v
  | row t =>
    rw [Layout.readCell, l.readRowBytes_eq]
    exact toLE hv
  | fixed n => exact toLE hv
  | string => exact toLE hv
  | guid => exact toLE hv
  | blob => exact toLE hv

/-- Values that fit their columns are read back. -/
theorem readCells {cs : List Column} {vs : Cells cs} (hvs : Cells.Fit l.width cs vs) :
    Reads (l.readCells cs) (Cells.write l.width cs vs) vs := by
  induction cs with
  | nil => exact .pure ()
  | cons c cs ih =>
    obtain ⟨v, vs⟩ := vs
    exact (readCell hvs.1).bind ((ih hvs.2).map fun vs => (v, vs))

/-- The row counts of the present tables are read back. -/
theorem counts {valid : Nat} {count : TableId → Option UInt32}
    (hvalid : ∀ t, valid.testBit t.number = (count t).isSome) (ts : List TableId) :
    Reads (Layout.counts valid ts)
      ((ts.filterMap count).flatMap fun rows => Bytes.toLE 4 rows.toNat)
      (ts.map fun t => (count t).map (·.toNat)) := by
  induction ts with
  | nil => exact .pure []
  | cons t ts ih =>
    have hbit := hvalid t
    have hrest (rows? : Option Nat) := ih.map (rows? :: ·)
    rw [Layout.counts, List.map_cons]
    cases hcount : count t with
    | none =>
      rw [hcount, Option.isSome_none] at hbit
      simp only [hbit, Bool.false_eq_true, ↓reduceIte, List.filterMap_cons_none hcount]
      exact Reads.bind (ReadsBefore.pure none) (hrest none)
    | some rows =>
      rw [hcount, Option.isSome_some] at hbit
      have hrows : Reads (some <$> Decoder.number 4) (Bytes.toLE 4 rows.toNat) (some rows.toNat) :=
        (toLE rows.toNat_lt).map some
      simp only [hbit, ↓reduceIte, List.filterMap_cons_some hcount, List.flatMap_cons]
      exact hrows.bind (hrest (some rows.toNat))

end Decoder.Reads

namespace StoredTables
open Decoder
variable (s : StoredTables)

theorem testBit_foldr_or (ts : List TableId) (n : Nat) :
    ((ts.map fun t : TableId => 1 <<< t.number).foldr (· ||| ·) 0).testBit n =
      ts.any fun t => t.number == n := by
  induction ts with
  | nil => simp
  | cons t ts ih =>
    rw [List.map_cons, List.foldr_cons, Nat.testBit_or, ih, List.any_cons, Nat.one_shiftLeft,
      Nat.testBit_two_pow]
    rfl

/-- The bits tell which tables are present. -/
theorem testBit_valid (t : TableId) : s.valid.testBit t.number = (s.rowCount t).isSome := by
  rw [valid, testBit_foldr_or, Bool.eq_iff_iff, List.any_eq_true]
  constructor
  · rintro ⟨u, hu, hnumber⟩
    obtain rfl := TableId.number_injective (beq_iff_eq.mp hnumber)
    exact (List.mem_filter.mp hu).2
  · intro hpresent
    exact ⟨t, List.mem_filter.mpr ⟨TableId.mem_all t, hpresent⟩, beq_self_eq_true _⟩

theorem valid_lt : s.valid < 1 <<< TableId.count := by
  rw [Nat.one_shiftLeft]
  refine Nat.lt_pow_two_of_testBit _ fun i hi => ?_
  rw [valid, testBit_foldr_or, List.any_eq_false]
  intro t _ hnumber
  have hlt := t.number_lt
  have heq := beq_iff_eq.mp hnumber
  omega

theorem valid_ne_zero {s : StoredTables} (hs : s.WellFormed) : s.valid ≠ 0 := by
  obtain ⟨t, ht⟩ := hs.present
  intro hzero
  have hbit := s.testBit_valid t
  rw [hzero, Nat.zero_testBit, ht] at hbit
  cases hbit

@[simp] theorem length_encodeHeader : s.encodeHeader.length = TableStream.headerSize := by
  simp [encodeHeader, TableStream.headerSize]

/-- The header is read back. -/
theorem reads_header : Reads TableStream.header s.encodeHeader
    (s.majorVersion.toNat, s.minorVersion.toNat, s.valid, s.sorted.toNat) := by
  have hlead : Reads (skip 4) (Bytes.toLE 4 s.lead.toNat) () := by
    simpa using Reads.skip (Bytes.toLE 4 s.lead.toNat)
  have hvalid : s.valid < 1 <<< (8 * 8) := Nat.lt_trans s.valid_lt (by decide)
  refine .need_bind (fun after _ => s.length_encodeHeader ▸ Nat.le_add_right _ _) ?_
  rw [encodeHeader]
  simp only [List.append_assoc]
  exact hlead.bind ((Reads.toLE s.majorVersion.toNat_lt).bind
    ((Reads.toLE s.minorVersion.toNat_lt).bind
    ((Reads.skip [s.flags, s.padding]).bind ((Reads.toLE hvalid).bind
    ((Reads.toLE s.sorted.toNat_lt).map _)))))

section Ahead
variable {s} {rest : List UInt8} {bytes : ByteArray}
  (hahead : Cursor.start.Ahead bytes (s.encode ++ rest))
include hahead

theorem byte?_flags : Bytes.byte? bytes 6 = some s.flags := by
  rw [encode, encodeHeader] at hahead
  simp only [List.append_assoc] at hahead
  have hflags := hahead.advance.advance.advance.byte?_eq
  simp only [Cursor.position_advance, Bytes.length_toLE] at hflags
  exact hflags

theorem ahead_counts : (Cursor.ofPosition Layout.countsOffset).Ahead bytes
    (s.encodeCounts ++ (s.encodeMore ++ (TableId.all.flatMap s.contents ++ rest))) := by
  rw [encode] at hahead
  simp only [List.append_assoc] at hahead
  exact hahead.advance.of_position (by rw [Cursor.position_advance, length_encodeHeader]; rfl)

theorem ahead_tables : (Cursor.ofPosition s.layout.tablesOffset).Ahead bytes
    (TableId.all.flatMap s.contents ++ rest) := by
  rw [encode, List.append_assoc] at hahead
  exact hahead.advance.of_position (Nat.zero_add _).symm

/-- The row counts and the widths of heap offsets are read back. -/
theorem ofBytes_layout : Layout.ofBytes bytes s.valid = .ok s.layout := by
  have hcounts := Reads.counts s.testBit_valid TableId.all trivial (ahead_counts hahead)
  have hoffset : s.layout.tablesOffset = Layout.countsOffset + s.encodeCounts.length +
      if s.flags.toNat.testBit 6 then 4 else 0 := by
    rw [layout, List.length_append, List.length_append, length_encodeHeader, encodeMore]
    split <;> simp [TableStream.headerSize, Layout.countsOffset]
  rw [Layout.ofBytes, if_neg (Nat.not_le.mpr s.valid_lt), hcounts]
  simp only [byte?_flags hahead]
  exact congrArg (fun offset => Except.ok { s.layout with tablesOffset := offset }) hoffset.symm

end Ahead

/-- The bytes of each table are found behind those of the tables in front of it. -/
theorem sliceTables_eq {s : StoredTables} (hs : s.WellFormed) {bytes : ByteArray}
    (ts : List TableId) {offset : Nat} {after : List UInt8}
    (hahead : (Cursor.ofPosition offset).Ahead bytes (ts.flatMap s.contents ++ after)) :
    TableStream.sliceTables bytes s.layout ts offset =
      .ok ((ts.filter fun t => s.rows t ≠ 0).map fun t => (t, ⟨(s.contents t).toArray⟩)) := by
  induction ts generalizing offset with
  | nil => rfl
  | cons t ts ih =>
    have hlength := hs.contents t
    rw [List.flatMap_cons, List.append_assoc] at hahead
    rw [TableStream.sliceTables, s.rows_layout, s.rowSize_layout, ← hlength]
    by_cases hrows : s.rows t = 0
    · -- Without rows there are no bytes, and the next table is looked for at the same place.
      have hempty : s.contents t = [] := by
        rw [← List.length_eq_zero_iff, hlength, hrows, Nat.zero_mul]
      rw [hempty, List.nil_append] at hahead
      rw [if_pos hrows, ih hahead, List.filter_cons_of_neg (by simpa using hrows)]
    · have hfits : ¬ bytes.size < offset + (s.contents t).length := by
        have hsize := hahead.size_eq
        rw [List.length_append] at hsize
        simp only [Cursor.ofPosition] at hsize
        omega
      have hextract : bytes.extract offset (offset + (s.contents t).length) =
          ⟨(s.contents t).toArray⟩ := hahead.extract_eq
      have hrest : (Cursor.ofPosition (offset + (s.contents t).length)).Ahead bytes
          (ts.flatMap s.contents ++ after) := hahead.advance
      simp only [if_neg hrows, if_neg hfits, hextract, ih hrest]
      rw [List.filter_cons_of_pos (by simpa using hrows)]
      rfl

/-- A stream is read back from its stored form, whatever follows it. -/
theorem ofBytes_eq {s : StoredTables} (hs : s.WellFormed) (rest : List UInt8) :
    TableStream.ofBytes ⟨(s.encode ++ rest).toArray⟩ = .ok s.stream := by
  have hahead : Cursor.start.Ahead ⟨(s.encode ++ rest).toArray⟩ (s.encode ++ rest) := .start _
  have hheader : TableStream.header.decode ⟨(s.encode ++ rest).toArray⟩ =
      .ok (s.majorVersion.toNat, s.minorVersion.toNat, s.valid, s.sorted.toNat) := by
    have hform : s.encode ++ rest = s.encodeHeader ++
        (s.encodeCounts ++ (s.encodeMore ++ (TableId.all.flatMap s.contents ++ rest))) := by
      simp only [encode, List.append_assoc]
    rw [decode, hform, s.reads_header.run_start trivial]
  have hslices := sliceTables_eq hs TableId.all (ahead_tables hahead)
  rw [TableStream.ofBytes, hheader, Outcome.ok_bind]
  simp only [if_neg (valid_ne_zero hs), ofBytes_layout hahead, Outcome.ok_bind, hslices]
  rfl

variable {α : Type} [Record α]

theorem slice?_stream (t : TableId) :
    s.stream.slice? t = if s.rows t = 0 then none else some ⟨(s.contents t).toArray⟩ := by
  rw [TableStream.slice?, stream, TableStream.lookup_slices]
  simp

theorem table_stream_eq_none (hrows : s.rows (Record.table α) = 0) : s.stream.table α = none := by
  rw [TableStream.table, s.slice?_stream, if_pos hrows]
  rfl

/-- A table that has rows is made of their bytes. -/
theorem exists_table_stream {s : StoredTables} (hs : s.WellFormed)
    (hrows : s.rows (Record.table α) ≠ 0) :
    ∃ t : Table α, s.stream.table α = some t ∧ t.rowCount = s.rows (Record.table α) ∧
      t.layout = s.layout ∧ t.bytes = ⟨(s.contents (Record.table α)).toArray⟩ := by
  have hcount : s.stream.rows (Record.table α) = s.rows (Record.table α) := s.rows_layout _
  have hfits : s.stream.rows (Record.table α) * s.stream.layout.rowSize (Record.table α) ≤
      ByteArray.size ⟨(s.contents (Record.table α)).toArray⟩ := by
    change _ * s.layout.rowSize _ ≤ _
    rw [hcount, s.rowSize_layout, ← hs.contents]
    exact Nat.le_of_eq (by simp [← ByteArray.size_data])
  rw [← hcount]
  exact s.stream.exists_table (by rw [s.slice?_stream, if_neg hrows]) hfits

theorem length_encodeRecord (a : α) : (s.encodeRecord a).length = s.rowSize (Record.table α) := by
  rw [encodeRecord, Cells.length_write, Record.columns_eq, rowSize]

theorem length_encodeRecords (records : List α) :
    (records.flatMap s.encodeRecord).length = records.length * s.rowSize (Record.table α) := by
  induction records with
  | nil => simp
  | cons a records ih =>
    rw [List.flatMap_cons, List.length_append, length_encodeRecord, ih, List.length_cons,
      Nat.succ_mul, Nat.add_comm]

/-- A table of records is as long as its rows take. -/
theorem Holds.length_contents {s : StoredTables} {records : List α} (h : s.Holds records) :
    (s.contents (Record.table α)).length =
      s.rows (Record.table α) * s.rowSize (Record.table α) := by
  rw [h.contents, h.rows, length_encodeRecords]

/-- A record that its columns can store is read back. -/
theorem run_row {a : α} (ha : Cells.Fit s.width (Record.columns α) (Record.toCells a))
    {bytes : ByteArray} {c : Cursor} {after : List UInt8}
    (hahead : c.Ahead bytes (s.encodeRecord a ++ after)) (rid : Nat) :
    ((s.layout.row α rid).run bytes c).1 = .ok ⟨rid, c.position, a⟩ := by
  rw [← s.width_layout] at ha
  rw [encodeRecord, ← s.width_layout] at hahead
  have hcells := Reads.readCells ha trivial hahead
  have hcursor : cursor.run bytes c = (.ok c, c) := rfl
  rw [Layout.row, run_bind, hcursor]
  dsimp only
  rw [run_bind, hcells]
  dsimp only
  rw [Record.ofCells_toCells, run_pure]

/-- A record lies where the records in front of it end. -/
theorem ahead_record {records : List α} {i : Nat} {a : α} (ha : records[i]? = some a) :
    (Cursor.ofPosition (i * s.rowSize (Record.table α))).Ahead
      ⟨(records.flatMap s.encodeRecord).toArray⟩
      (s.encodeRecord a ++ (records.drop (i + 1)).flatMap s.encodeRecord) := by
  obtain ⟨hlt, rfl⟩ := List.getElem?_eq_some_iff.mp ha
  refine ⟨(records.take i).flatMap s.encodeRecord, ?_, ?_⟩
  · rw [← List.flatMap_cons, ← List.drop_eq_getElem_cons hlt, ← List.flatMap_append,
      List.take_append_drop]
  · rw [length_encodeRecords, List.length_take, Nat.min_eq_left (Nat.le_of_lt hlt)]
    rfl

/-- Each record of a table is read back as the row of its number, and no other row is. -/
theorem row_stream {s : StoredTables} (hs : s.WellFormed) {records : List α}
    (hrecords : s.Holds records) (i : Nat) :
    s.stream.row α (i + 1) =
      records[i]?.map fun a => ⟨i + 1, i * s.rowSize (Record.table α), a⟩ := by
  by_cases hrows : s.rows (Record.table α) = 0
  · obtain rfl : records = [] := List.length_eq_zero_iff.mp (hrecords.rows ▸ hrows)
    rw [TableStream.row, s.table_stream_eq_none hrows]
    rfl
  · obtain ⟨t, htable, hcount, hlayout, hbytes⟩ := exists_table_stream hs hrows
    have hsize : t.rowSize = s.rowSize (Record.table α) := by
      rw [Table.rowSize, hlayout, s.rowSize_layout]
    have hrow : s.stream.row α (i + 1) = t.get (i + 1) := by rw [TableStream.row, htable]; rfl
    rw [hrow, Table.get, hcount, hrecords.rows]
    cases ha : records[i]? with
    | none =>
      rw [if_pos (.inr (Nat.lt_succ_of_le (List.getElem?_eq_none_iff.mp ha)))]
      rfl
    | some a =>
      have hlt := (List.getElem?_eq_some_iff.mp ha).1
      have hread := s.run_row (hrecords.fit a (List.mem_of_getElem? ha)) (s.ahead_record ha) (i + 1)
      rw [if_neg (by omega), Nat.add_sub_cancel, hsize, hlayout, hbytes, hrecords.contents,
        decodeAt, hread]
      rfl

/-- **Tables are read back** from the stored form of their stream, whatever follows it: a table is
there if it has records, and the row of each number is the record at its place. -/
theorem ofBytes_encode {s : StoredTables} (hs : s.WellFormed) (rest : List UInt8) :
    TableStream.ofBytes ⟨(s.encode ++ rest).toArray⟩ = .ok s.stream ∧
    ∀ (α : Type) [Record α] (records : List α), s.Holds records →
      ((s.stream.table α).isSome ↔ records ≠ []) ∧ s.stream.row α 0 = none ∧
      ∀ i, s.stream.row α (i + 1) =
        records[i]?.map fun a => ⟨i + 1, i * s.rowSize (Record.table α), a⟩ := by
  refine ⟨ofBytes_eq hs rest, fun α _ records hrecords => ⟨?_, ?_, row_stream hs hrecords⟩⟩
  · have hempty : s.rows (Record.table α) = 0 ↔ records = [] := by
      rw [hrecords.rows, List.length_eq_zero_iff]
    by_cases hrows : s.rows (Record.table α) = 0
    · simp [s.table_stream_eq_none hrows, hempty.mp hrows]
    · obtain ⟨t, htable, -⟩ := exists_table_stream hs hrows
      simp [htable, ← hempty, hrows]
  · cases hrow : s.stream.row α 0 with
    | none => rfl
    | some row => exact absurd (s.stream.rid_of_row hrow).2.1 (by decide)

def sampleTypes : List TypeDefinition :=
  [⟨0x20, 0x12345, 0, ⟨.typeRef, 7⟩, 1, 1⟩, ⟨0, 9, 0xFFFFFFFF, ⟨.typeSpec, 0x3FFF⟩, 1, 0xFFFF⟩]

def sampleAttributes : List CustomAttribute := [⟨⟨.interfaceImpl, 2048⟩, ⟨.memberRef, 3⟩, 4⟩]

/-- Offsets in the string heap are wide, and so are references to what carries an attribute, for
the sake of 2048 interfaces. The table of fields is present without rows. -/
def sample : StoredTables where
  lead := 0
  majorVersion := 2
  minorVersion := 0
  flags := 0x41
  padding := 1
  sorted := 0
  more := 0
  rowCount
    | .typeDef => some 2
    | .field => some 0
    | .interfaceImpl => some 2048
    | .customAttribute => some 1
    | _ => none
  contents
    | .typeDef => [0x20, 0, 0, 0, 0x45, 0x23, 1, 0, 0, 0, 0, 0, 0x1D, 0, 1, 0, 1, 0,
        0, 0, 0, 0, 9, 0, 0, 0, 0xFF, 0xFF, 0xFF, 0xFF, 0xFE, 0xFF, 1, 0, 0xFF, 0xFF]
    | .interfaceImpl => List.replicate 8192 0xAB
    | .customAttribute => [5, 0, 1, 0, 0x1B, 0, 4, 0]
    | _ => []

theorem holds_sampleTypes : sample.Holds sampleTypes :=
  ⟨by decide, by decide, by decide⟩

theorem holds_sampleAttributes : sample.Holds sampleAttributes :=
  ⟨by decide, by decide, by decide⟩

theorem wellFormed_sample : sample.WellFormed where
  present := ⟨.field, rfl⟩
  contents := by
    have hinterfaces : (sample.contents .interfaceImpl).length =
        sample.rows .interfaceImpl * sample.rowSize .interfaceImpl := by
      change (List.replicate 8192 (0xAB : UInt8)).length = _
      rw [List.length_replicate]
      decide
    intro t
    cases t with
    | typeDef => exact holds_sampleTypes.length_contents
    | customAttribute => exact holds_sampleAttributes.length_contents
    | interfaceImpl => exact hinterfaces
    | _ => decide

theorem ofBytes_encode_sample : sample.WellFormed ∧ sample.Holds sampleTypes ∧
    sample.Holds sampleAttributes ∧
    TableStream.ofBytes ⟨(sample.encode ++ [0xFF]).toArray⟩ = .ok sample.stream ∧
    sample.stream.row TypeDefinition 2 =
      some ⟨2, 18, ⟨0, 9, 0xFFFFFFFF, ⟨.typeSpec, 0x3FFF⟩, 1, 0xFFFF⟩⟩ ∧
    sample.stream.row TypeDefinition 3 = none ∧
    sample.stream.row CustomAttribute 1 =
      some ⟨1, 0, ⟨⟨.interfaceImpl, 2048⟩, ⟨.memberRef, 3⟩, 4⟩⟩ := by
  obtain ⟨hread, htables⟩ := ofBytes_encode wellFormed_sample [0xFF]
  obtain ⟨-, -, htypes⟩ := htables TypeDefinition sampleTypes holds_sampleTypes
  obtain ⟨-, -, hattributes⟩ := htables CustomAttribute sampleAttributes holds_sampleAttributes
  exact ⟨wellFormed_sample, holds_sampleTypes, holds_sampleAttributes, hread, htypes 1, htypes 2,
    hattributes 0⟩

end StoredTables
end MethodAtlas
