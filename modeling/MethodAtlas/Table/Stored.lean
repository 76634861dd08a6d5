import MethodAtlas.Table.Stream

/-!
# Stored tables

A stream of tables as ECMA-335 II.24.2.6 stores it: the header, the row counts of the present
tables, and the bytes of the tables one after the other. `encode` lays it out, with columns as wide
as the standard says (`width`), and `layout` says which row counts and heap widths are to be read
back. The tables of a well-formed stream are as long as their rows take.
-/
namespace MethodAtlas

/-- What a stream of tables stores. The bytes that reading passes over can be anything. -/
structure StoredTables where
  lead : UInt32
  majorVersion : UInt8
  minorVersion : UInt8
  /-- Which heaps need wide offsets, and whether four more bytes follow the row counts. -/
  flags : UInt8
  padding : UInt8
  sorted : UInt64
  more : UInt32
  /-- The rows of each table that is present. -/
  rowCount : TableId → Option UInt32
  /-- The bytes of each table. -/
  contents : TableId → List UInt8

namespace StoredTables
variable (s : StoredTables)

/-- The present tables in the order of their numbers. -/
def present : List TableId := TableId.all.filter fun t => (s.rowCount t).isSome

/-- A bit for each present table. -/
def valid : Nat := (s.present.map fun t => 1 <<< t.number).foldr (· ||| ·) 0

/-- The row counts in the order of the tables. -/
def encodeCounts : List UInt8 :=
  (TableId.all.filterMap s.rowCount).flatMap fun rows => Bytes.toLE 4 rows.toNat

/-- The stored form of the header in front of the row counts. -/
def encodeHeader : List UInt8 :=
  Bytes.toLE 4 s.lead.toNat ++ Bytes.toLE 1 s.majorVersion.toNat
    ++ Bytes.toLE 1 s.minorVersion.toNat ++ [s.flags, s.padding] ++ Bytes.toLE 8 s.valid
    ++ Bytes.toLE 8 s.sorted.toNat

/-- The bytes between the row counts and the first row. -/
def encodeMore : List UInt8 :=
  if s.flags.toNat.testBit 6 then Bytes.toLE 4 s.more.toNat else []

/-- The stored form of a stream. -/
def encode : List UInt8 :=
  s.encodeHeader ++ s.encodeCounts ++ s.encodeMore ++ TableId.all.flatMap s.contents

/-- The rows of a table. -/
def rows (t : TableId) : Nat := (s.rowCount t).elim 0 (·.toNat)

/-- The bytes of a column: heaps tell by flags whether their offsets are wide, a row number is wide
if the table has more rows than two bytes can number, and a coded index if one of its tables has
more rows than the tag leaves bits for. -/
def width : Column → Nat
  | .fixed bytes => bytes
  | .string => if s.flags.toNat.testBit 0 then 4 else 2
  | .guid => if s.flags.toNat.testBit 1 then 4 else 2
  | .blob => if s.flags.toNat.testBit 2 then 4 else 2
  | .row t => if 0xFFFF < s.rows t then 4 else 2
  | .coded k => if ∃ t ∈ k.targets, 1 <<< (16 - k.tagBits) ≤ s.rows t then 4 else 2

/-- The bytes of a row of a table. -/
def rowSize (t : TableId) : Nat := Cells.size s.width t.columns

/-- Some table is present, and each is as long as its rows take. -/
structure WellFormed : Prop where
  present : ∃ t, (s.rowCount t).isSome
  contents : ∀ t, (s.contents t).length = s.rows t * s.rowSize t

variable {α : Type} [Record α]

/-- The stored form of a record. -/
def encodeRecord (a : α) : List UInt8 :=
  Cells.write s.width (Record.columns α) (Record.toCells a)

/-- Whether a table has these records and its columns can store them. -/
structure Holds (records : List α) : Prop where
  rows : s.rows (Record.table α) = records.length
  contents : s.contents (Record.table α) = records.flatMap s.encodeRecord
  fit : ∀ a ∈ records, Cells.Fit s.width (Record.columns α) (Record.toCells a)

/-- The row counts and widths of the stream. -/
def layout : Layout where
  rowCounts := TableId.all.map fun t => (s.rowCount t).map (·.toNat)
  wideStrings := s.flags.toNat.testBit 0
  wideGuids := s.flags.toNat.testBit 1
  wideBlobs := s.flags.toNat.testBit 2
  tablesOffset := (s.encodeHeader ++ s.encodeCounts ++ s.encodeMore).length

/-- What is to be read back of the stream: the bytes of each table that has rows. -/
def stream : TableStream where
  majorVersion := s.majorVersion.toNat
  minorVersion := s.minorVersion.toNat
  valid := s.valid
  sorted := s.sorted.toNat
  layout := s.layout
  slices := (TableId.all.filter fun t => s.rows t ≠ 0).map fun t =>
    (t, ⟨(s.contents t).toArray⟩)

end StoredTables
end MethodAtlas
