import MethodAtlas.Table.Basic

/-!
# The stream of tables

The stream (ECMA-335 II.24.2.6) opens with a bit vector of the present tables and their row
counts. The tables follow back to back in the order of their numbers.
-/
namespace MethodAtlas

/-- The header of the stream and the bytes of each table that has rows. -/
structure TableStream where
  majorVersion : Nat
  minorVersion : Nat
  /-- A bit for each present table. -/
  valid : Nat
  /-- A bit for each sorted table. -/
  sorted : Nat
  layout : Layout
  slices : List (TableId × ByteArray)
deriving DecidableEq

namespace TableStream

/-- The size of the header in front of the row counts. -/
def headerSize : Nat := 24

/-- The bytes of the tables that have rows, the first of which starts at an offset. -/
def sliceTables (bytes : ByteArray) (l : Layout) :
    List TableId → (offset : Nat) → Except Fault (List (TableId × ByteArray))
  | [], _ => .ok []
  | t :: ts, offset =>
    if l.rows t = 0 then sliceTables bytes l ts offset
    else
      let stop := offset + l.rows t * l.rowSize t
      if bytes.size < stop then .error .outOfBounds
      else do
        let rest ← sliceTables bytes l ts stop
        pure ((t, bytes.extract offset stop) :: rest)

/-- The fields of the header. -/
def header : Decoder (Nat × Nat × Nat × Nat) := do
  .need headerSize
  .skip 4
  let major ← .number 1
  let minor ← .number 1
  .skip 2
  let valid ← .number 8
  let sorted ← .number 8
  pure (major, minor, valid, sorted)

/-- Reads the stream: some table has to be present, and all rows have to lie within the bytes. -/
def ofBytes (bytes : ByteArray) : Except Fault TableStream := do
  let (majorVersion, minorVersion, valid, sorted) ← header.decode bytes
  if valid = 0 then .error (.malformed .noTables) else
  let layout ← Layout.ofBytes bytes valid
  let slices ← sliceTables bytes layout TableId.all layout.tablesOffset
  pure { majorVersion, minorVersion, valid, sorted, layout, slices }

/-- The number of present tables. -/
def tableCount (s : TableStream) : Nat :=
  (TableId.all.filter fun t => s.valid.testBit t.number).length

/-- The rows of a table. -/
def rows (s : TableStream) (t : TableId) : Nat := s.layout.rows t

/-- The bytes of a table, if it has rows. -/
def slice? (s : TableStream) (t : TableId) : Option ByteArray := s.slices.lookup t

/-- A table, if it has rows. -/
def table (s : TableStream) (α : Type) [Record α] : Option (Table α) := do
  let bytes ← s.slice? (Record.table α)
  (Table.ofBytes bytes (s.rows (Record.table α)) s.layout).toOption

/-- A row of a table, if it is there and can be read. -/
def row (s : TableStream) (α : Type) [Record α] (rid : Nat) : Option (Row α) := do
  (← s.table α).get rid

/-- The rows of a table in order, up to the first that cannot be read. -/
def rowList (s : TableStream) (α : Type) [Record α] : List (Row α) :=
  match s.table α with
  | some t => t.toList
  | none => []

end TableStream
end MethodAtlas
