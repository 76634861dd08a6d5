import MethodAtlas.Decoder
import MethodAtlas.Table.Schema

/-!
# Row counts and widths

How many rows each table has and how wide the columns are. Columns that refer to something are
two bytes wide, or four where two cannot hold every reference. `Layout.width` measures a column for
finding the rows, and `Layout.readCell` decides for itself how many bytes of it to read.
-/
namespace MethodAtlas

/-- The bits that the largest row number of a present table takes; without rows that is one. -/
def rowBits (rows : Nat) : Nat := if rows = 0 then 1 else Nat.log2 rows + 1

/-- Whether two bytes cannot hold every row number. -/
def isLarge (rows : Nat) : Bool := 0xFFFF < rows

/-- What a number of so many bits is stored in. -/
def indexBytes (bits : Nat) : Nat := if 16 < bits then 4 else 2

/-- The sizes that decide where a row lies and how it is read. -/
structure Layout where
  /-- The rows of each present table, in the order of the tables' numbers. -/
  rowCounts : List (Option Nat)
  wideStrings : Bool
  wideGuids : Bool
  wideBlobs : Bool
  /-- Where in the stream the first row lies. -/
  tablesOffset : Nat
deriving DecidableEq, Repr

namespace Layout

/-- Where in the stream the row counts lie. -/
def countsOffset : Nat := 24

/-- A count for each present table, none for the others. -/
def counts (valid : Nat) : List TableId → Decoder (List (Option Nat))
  | [] => pure []
  | t :: ts => do
    let rows ← if valid.testBit t.number then some <$> .number 4 else pure none
    let rest ← counts valid ts
    pure (rows :: rest)

/-- Reads the sizes from the start of a stream whose present tables are the bits of `valid`. -/
def ofBytes (bytes : ByteArray) (valid : Nat) : Except Fault Layout :=
  if 1 <<< TableId.count ≤ valid then .error .notSupported
  else
    match (counts valid TableId.all).run bytes (.ofPosition countsOffset) with
    | (.error e, _) => .error e
    | (.ok rowCounts, c) =>
      match Bytes.byte? bytes 6 with
      | none => .error .outOfBounds
      | some flags => .ok {
          rowCounts
          wideStrings := flags.toNat.testBit 0
          wideGuids := flags.toNat.testBit 1
          wideBlobs := flags.toNat.testBit 2
          tablesOffset := c.position + if flags.toNat.testBit 6 then 4 else 0 }

/-- The rows of a table, if it is present. -/
def rows? (l : Layout) (t : TableId) : Option Nat := l.rowCounts[t.number]?.join

/-- The rows of a table. -/
def rows (l : Layout) (t : TableId) : Nat := (l.rows? t).getD 0

/-- The bits that the largest row number of a table takes. -/
def bits (l : Layout) (t : TableId) : Nat := (l.rows? t).elim 0 rowBits

/-- The bytes of an offset in the string heap. -/
def stringBytes (l : Layout) : Nat := if l.wideStrings then 4 else 2

/-- The bytes of a number in the heap of identifiers. -/
def guidBytes (l : Layout) : Nat := if l.wideGuids then 4 else 2

/-- The bytes of an offset in the blob heap. -/
def blobBytes (l : Layout) : Nat := if l.wideBlobs then 4 else 2

/-- The bytes of a row number of a table. -/
def rowBytes (l : Layout) (t : TableId) : Nat := indexBytes (l.bits t)

/-- The bits of a coded index: its tag and the largest row number of its tables. -/
def codedBits (l : Layout) (k : CodedKind) : Nat :=
  (k.targets.map l.bits).foldl max 0 + k.tagBits

/-- The bytes that are read for a row number of a table. -/
def readRowBytes (l : Layout) (t : TableId) : Nat := if isLarge (l.rows t) then 4 else 2

/-- The bytes of a coded index. -/
def codedBytes (l : Layout) (k : CodedKind) : Nat := indexBytes (l.codedBits k)

/-- The bytes of a column. -/
def width (l : Layout) : Column → Nat
  | .fixed bytes => bytes
  | .string => l.stringBytes
  | .guid => l.guidBytes
  | .blob => l.blobBytes
  | .row t => l.rowBytes t
  | .coded k => l.codedBytes k

/-- The bytes of a row of a table. -/
def rowSize (l : Layout) (t : TableId) : Nat := Cells.size l.width t.columns

/-- A coded index. One whose tag selects no table is consumed all the same. -/
def coded (l : Layout) (k : CodedKind) : Decoder CodedIndex := do
  let value ← .number (l.codedBytes k)
  match k.decode? value with
  | some i => pure i
  | none => .malformed (.codedTag (k.tagOf value) k)

/-- The value of a column. -/
def readCell (l : Layout) : (c : Column) → Decoder c.Value
  | .coded k => l.coded k
  | .fixed n => .number n
  | .string => .number l.stringBytes
  | .guid => .number l.guidBytes
  | .blob => .number l.blobBytes
  | .row t => .number (l.readRowBytes t)

/-- The values of columns side by side. -/
def readCells (l : Layout) : (cs : List Column) → Decoder (Cells cs)
  | [] => pure ()
  | c :: cs => do
    let v ← l.readCell c
    let vs ← l.readCells cs
    pure (v, vs)

end Layout
end MethodAtlas
