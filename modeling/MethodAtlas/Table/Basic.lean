import MethodAtlas.Table.Record

/-!
# Tables

The rows of one table, numbered from one. A row is read where its number puts it (`Table.get`)
or right after the row before it (`Table.toList`).
-/
namespace MethodAtlas

/-- A row with its number and its place among the bytes of the table. -/
structure Row (α : Type) where
  rid : Nat
  offset : Nat
  record : α
deriving DecidableEq, Repr

namespace Row
variable {α : Type} [Record α]

/-- The token that names the row. -/
def token (r : Row α) : Token := ⟨(Record.table α).number * 0x1000000 + r.rid⟩

end Row

/-- The row at the cursor. -/
def Layout.row (l : Layout) (α : Type) [Record α] (rid : Nat) : Decoder (Row α) := do
  let start ← .cursor
  let cells ← l.readCells (Record.columns α)
  pure ⟨rid, start.position, Record.ofCells cells⟩

/-- The stored form of a record. -/
def Layout.encodeRecord {α : Type} [Record α] (l : Layout) (a : α) : List UInt8 :=
  Cells.write l.width (Record.columns α) (Record.toCells a)

/-- The bytes of a table whose rows all lie within them. -/
structure Table (α : Type) [Record α] where
  bytes : ByteArray
  rowCount : Nat
  layout : Layout
  fits : rowCount * layout.rowSize (Record.table α) ≤ bytes.size

namespace Table
variable {α : Type} [Record α]

/-- A table of so many rows, unless the bytes are too few for them. -/
def ofBytes (bytes : ByteArray) (rowCount : Nat) (layout : Layout) : Except Fault (Table α) :=
  if fits : rowCount * layout.rowSize (Record.table α) ≤ bytes.size then
    .ok ⟨bytes, rowCount, layout, fits⟩
  else .error .outOfBounds

/-- The bytes of a row. -/
def rowSize (t : Table α) : Nat := t.layout.rowSize (Record.table α)

/-- The bytes of all rows. -/
def size (t : Table α) : Nat := t.rowCount * t.rowSize

/-- The row of a number, if there is one and it can be read. -/
def get (t : Table α) (rid : Nat) : Option (Row α) :=
  if rid = 0 ∨ t.rowCount < rid then none
  else ((t.layout.row α rid).decodeAt t.bytes ((rid - 1) * t.rowSize)).toOption

/-- The rows after `done`, up to the first that cannot be read. -/
def collectRows (t : Table α) : (left rid : Nat) → Cursor → Array (Row α) → Array (Row α)
  | 0, _, _, done => done
  | left + 1, rid, c, done =>
    match (t.layout.row α rid).run t.bytes c with
    | (.ok row, c') => t.collectRows left (rid + 1) c' (done.push row)
    | (.error _, _) => done

/-- The rows in order, up to the first that cannot be read. -/
def toList (t : Table α) : List (Row α) := (t.collectRows t.rowCount 1 .start #[]).toList

end Table
end MethodAtlas
