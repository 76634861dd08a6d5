import MethodAtlas.Proofs.Bytes.Consumption
import MethodAtlas.Proofs.Table.Widths
import Mathlib.Data.List.Nodup
import Mathlib.Data.List.TakeWhile

/-!
# Rows one by one and rows in a row

A row that is read leaves the cursor right behind its bytes, which is where the number of the next
row puts that one. So reading rows in a row gives what reading each by its number gives, up to the
first that cannot be read: `TableStream.rowList_eq`. Only a coded index can make a row unreadable.
-/
namespace MethodAtlas

/-- The number that so many bytes from a position on hold. -/
def Bytes.numberAt (bytes : ByteArray) (position width : Nat) : Nat :=
  ofLE (bytes.extract position (position + width)).data.toList

/-- A row of a number up to that of the last ends no later than the last. -/
theorem rowEnd_le {rid rows size : Nat} (h1 : 1 ≤ rid) (h2 : rid ≤ rows) :
    (rid - 1) * size + size ≤ rows * size := by
  rw [← Nat.succ_mul, Nat.succ_eq_add_one, Nat.sub_add_cancel h1]
  exact Nat.mul_le_mul_right _ h2

/-- Whether a column refers to rows of several tables. -/
def Column.isCoded : Column → Bool
  | coded _ => true
  | _ => false

namespace Layout
variable (l : Layout) {bytes : ByteArray} {c c' : Cursor}

/-- A cell that is read leaves the cursor right behind it. -/
theorem advance_of_readCell {col : Column} {v : col.Value}
    (h : (l.readCell col).run bytes c = (.ok v, c')) : c' = c.advance (l.width col) := by
  cases col with
  | coded k =>
    obtain ⟨value, mid, hvalue, hmid⟩ := Decoder.run_bind_eq_ok h
    have hadvance := Decoder.advance_of_run_number hvalue
    split at hmid <;> cases hmid
    exact hadvance
  | fixed n => exact Decoder.advance_of_run_number h
  | string => exact Decoder.advance_of_run_number h
  | guid => exact Decoder.advance_of_run_number h
  | blob => exact Decoder.advance_of_run_number h
  | row t =>
    rw [width, ← l.readRowBytes_eq]
    exact Decoder.advance_of_run_number h

theorem advance_of_readCells {cols : List Column} {vs : Cells cols}
    (h : (l.readCells cols).run bytes c = (.ok vs, c')) :
    c' = c.advance (Cells.size l.width cols) := by
  induction cols generalizing c with
  | nil => cases h; rfl
  | cons col cols ih =>
    rw [readCells] at h
    obtain ⟨v, mid, hcell, hrest⟩ := Decoder.run_bind_eq_ok h
    obtain ⟨vs', last, hcells, hlast⟩ := Decoder.run_bind_eq_ok hrest
    cases hlast
    rw [ih hcells, l.advance_of_readCell hcell, Cursor.advance_advance]
    simp [Cells.size]

/-- The cells of a row that starts at a position: each column, and where its cell starts. -/
def cellPlaces : List Column → (position : Nat) → List (Column × Nat)
  | [], _ => []
  | col :: cols, position => (col, position) :: cellPlaces cols (position + l.width col)

theorem mem_of_mem_cellPlaces {cols : List Column} {position : Nat} {cell : Column × Nat}
    (h : cell ∈ l.cellPlaces cols position) : cell.1 ∈ cols := by
  induction cols generalizing position with
  | nil => cases h
  | cons col cols ih =>
    rcases List.mem_cons.mp h with rfl | h
    · exact List.mem_cons_self
    · exact List.mem_cons_of_mem _ (ih h)

/-- Whether a cell is a coded index with a tag that selects no table. -/
def HasUnusedTag (bytes : ByteArray) (col : Column) (position : Nat) : Prop :=
  ∃ k, col = .coded k ∧ k.table? (k.tagOf (Bytes.numberAt bytes position (l.codedBytes k))) = none

theorem not_hasUnusedTag {col : Column} {position : Nat} (hcol : col.isCoded = false) :
    ¬ l.HasUnusedTag bytes col position := by
  rintro ⟨k, rfl, -⟩
  cases hcol

/-- The number that is stored for a coded index decides what is read. -/
theorem run_coded {k : CodedKind} {value : Nat}
    (h : (Decoder.number (l.codedBytes k)).run bytes c = (.ok value, c')) :
    (l.coded k).run bytes c =
      ((k.decode? value).elim (.error (.malformed (.codedTag (k.tagOf value) k))) .ok, c') := by
  rw [coded, Decoder.run_bind, h]
  dsimp only
  cases k.decode? value <;> rfl

/-- A cell whose bytes are there is read, unless it is a coded index with an unused tag. -/
theorem exists_readCell_iff {col : Column} (hfit : c.position + l.width col ≤ bytes.size) :
    (∃ v c', (l.readCell col).run bytes c = (.ok v, c')) ↔
      ¬ l.HasUnusedTag bytes col c.position := by
  have hnumber (width : Nat) (hwidth : width = l.width col) : (Decoder.number width).run bytes c =
      (.ok (Bytes.numberAt bytes c.position width), c.advance width) := by
    subst hwidth
    rw [Decoder.run_number, if_pos hfit]
    rfl
  cases col with
  | coded k =>
    have htag : l.HasUnusedTag bytes (.coded k) c.position ↔
        k.decode? (Bytes.numberAt bytes c.position (l.codedBytes k)) = none := by
      simp [HasUnusedTag, CodedKind.decode?]
    rw [htag, readCell, l.run_coded (hnumber (l.codedBytes k) rfl)]
    cases k.decode? (Bytes.numberAt bytes c.position (l.codedBytes k)) with
    | none =>
      constructor
      · rintro ⟨v, c', h⟩
        cases h
      · exact fun h => absurd rfl h
    | some i => exact ⟨fun _ => Option.some_ne_none i, fun _ => ⟨i, _, rfl⟩⟩
  | row t =>
    exact ⟨fun _ => l.not_hasUnusedTag rfl, fun _ => ⟨_, _, hnumber _ (l.readRowBytes_eq t)⟩⟩
  | fixed n => exact ⟨fun _ => l.not_hasUnusedTag rfl, fun _ => ⟨_, _, hnumber _ rfl⟩⟩
  | string => exact ⟨fun _ => l.not_hasUnusedTag rfl, fun _ => ⟨_, _, hnumber _ rfl⟩⟩
  | guid => exact ⟨fun _ => l.not_hasUnusedTag rfl, fun _ => ⟨_, _, hnumber _ rfl⟩⟩
  | blob => exact ⟨fun _ => l.not_hasUnusedTag rfl, fun _ => ⟨_, _, hnumber _ rfl⟩⟩

/-- Cells whose bytes are there are read, unless one is a coded index with an unused tag. -/
theorem exists_readCells_iff {cols : List Column}
    (hfit : c.position + Cells.size l.width cols ≤ bytes.size) :
    (∃ vs c', (l.readCells cols).run bytes c = (.ok vs, c')) ↔
      ¬ ∃ cell ∈ l.cellPlaces cols c.position, l.HasUnusedTag bytes cell.1 cell.2 := by
  induction cols generalizing c with
  | nil => exact ⟨fun _ => by simp [cellPlaces], fun _ => ⟨(), c, rfl⟩⟩
  | cons col cols ih =>
    rw [Cells.size, ← Nat.add_assoc] at hfit
    have hcell := l.exists_readCell_iff (Nat.le_of_add_right_le hfit)
    have hcells := ih (c := c.advance (l.width col)) hfit
    rw [Cursor.position_advance] at hcells
    rw [cellPlaces, List.exists_mem_cons_iff, not_or, ← hcell, ← hcells, readCells]
    constructor
    · rintro ⟨vs, c', h⟩
      obtain ⟨v, mid, hv, h⟩ := Decoder.run_bind_eq_ok h
      obtain ⟨vs', last, hvs, -⟩ := Decoder.run_bind_eq_ok h
      rw [l.advance_of_readCell hv] at hvs
      exact ⟨⟨v, mid, hv⟩, ⟨vs', last, hvs⟩⟩
    · rintro ⟨⟨v, mid, hv⟩, ⟨vs, last, hvs⟩⟩
      rw [← l.advance_of_readCell hv] at hvs
      refine ⟨(v, vs), last, ?_⟩
      rw [Decoder.run_bind, hv]
      dsimp only
      rw [Decoder.run_bind, hvs]
      rfl

variable {α : Type} [Record α]

/-- A row that is read is made of its cells, its number and the place that it was read at. -/
theorem exists_readCells_of_row {rid : Nat} {row : Row α}
    (h : (l.row α rid).run bytes c = (.ok row, c')) :
    ∃ vs, (l.readCells (Record.columns α)).run bytes c = (.ok vs, c') ∧
      row = ⟨rid, c.position, Record.ofCells vs⟩ := by
  rw [Layout.row] at h
  obtain ⟨start, mid, hstart, hrest⟩ := Decoder.run_bind_eq_ok h
  cases hstart
  obtain ⟨vs, last, hcells, hlast⟩ := Decoder.run_bind_eq_ok hrest
  cases hlast
  exact ⟨vs, hcells, rfl⟩

theorem advance_of_row {rid : Nat} {row : Row α}
    (h : (l.row α rid).run bytes c = (.ok row, c')) :
    c' = c.advance (l.rowSize (Record.table α)) ∧ row.rid = rid := by
  obtain ⟨vs, hcells, rfl⟩ := l.exists_readCells_of_row h
  rw [rowSize, ← Record.columns_eq]
  exact ⟨l.advance_of_readCells hcells, rfl⟩

end Layout

namespace Table
variable {α : Type} [Record α] (t : Table α)

/-- A row that is got by its number is read where the number puts it. -/
theorem run_of_get {rid : Nat} {row : Row α} (h : t.get rid = some row) :
    (1 ≤ rid ∧ rid ≤ t.rowCount) ∧ ∃ last,
      (t.layout.row α rid).run t.bytes (.ofPosition ((rid - 1) * t.rowSize)) = (.ok row, last) := by
  rw [get] at h
  split at h
  · cases h
  · next hrange =>
    refine ⟨by omega, ?_⟩
    cases hrun : (t.layout.row α rid).run t.bytes (.ofPosition ((rid - 1) * t.rowSize)) with
    | mk outcome last =>
      simp only [Decoder.decodeAt, hrun] at h
      cases outcome with
      | error e => cases h
      | ok row' =>
        cases h
        exact ⟨last, rfl⟩

theorem rid_of_get {rid : Nat} {row : Row α} (h : t.get rid = some row) :
    row.rid = rid ∧ 1 ≤ rid ∧ rid ≤ t.rowCount := by
  obtain ⟨hrange, last, hrun⟩ := t.run_of_get h
  exact ⟨(t.layout.advance_of_row hrun).2, hrange⟩

/-- Rows read in a row are those read by their numbers, up to the first that cannot be. -/
theorem toList_collectRows (left rid : Nat) (done : Array (Row α)) (hrid : 1 ≤ rid)
    (hcount : rid + left = t.rowCount + 1) :
    (t.collectRows left rid (.ofPosition ((rid - 1) * t.rowSize)) done).toList =
      done.toList ++
        (((List.range' rid left).map t.get).takeWhile Option.isSome).filterMap id := by
  induction left generalizing rid done with
  | zero => simp [collectRows]
  | succ left ih =>
    have hget : t.get rid =
        ((t.layout.row α rid).run t.bytes (.ofPosition ((rid - 1) * t.rowSize))).1.toOption := by
      rw [get, if_neg (by omega)]
      rfl
    rw [collectRows, List.range'_succ, List.map_cons, List.takeWhile_cons, hget]
    cases hrun : (t.layout.row α rid).run t.bytes (.ofPosition ((rid - 1) * t.rowSize)) with
    | mk outcome last =>
      cases outcome with
      | error e => simp [Except.toOption]
      | ok row =>
        have hlast : last = .ofPosition ((rid + 1 - 1) * t.rowSize) := by
          rw [(t.layout.advance_of_row hrun).1]
          simp only [Cursor.advance, Cursor.ofPosition, Cursor.mk.injEq, and_true]
          rw [Nat.add_sub_cancel, ← Nat.sub_one_add_one (by omega : rid ≠ 0), Nat.succ_mul]
          rfl
        simp only [hlast, ih (rid + 1) (done.push row) (by omega) (by omega)]
        simp [Except.toOption]

theorem toList_eq :
    t.toList =
      (((List.range' 1 t.rowCount).map t.get).takeWhile Option.isSome).filterMap id := by
  have h := t.toList_collectRows t.rowCount 1 #[] (by omega) (by omega)
  simpa [toList, Cursor.start, Cursor.ofPosition] using h

/-- A row that there is can be read unless one of its coded indexes has an unused tag. -/
theorem get_eq_none_iff {rid : Nat} (h1 : 1 ≤ rid) (h2 : rid ≤ t.rowCount) :
    t.get rid = none ↔
      ∃ cell ∈ t.layout.cellPlaces (Record.table α).columns ((rid - 1) * t.rowSize),
        t.layout.HasUnusedTag t.bytes cell.1 cell.2 := by
  let c : Cursor := .ofPosition ((rid - 1) * t.rowSize)
  have hfit : c.position + t.rowSize ≤ t.bytes.size := Nat.le_trans (rowEnd_le h1 h2) t.fits
  have hcells : (∃ vs c', (t.layout.readCells (Record.columns α)).run t.bytes c = (.ok vs, c')) ↔
      ¬ ∃ cell ∈ t.layout.cellPlaces (Record.columns α) ((rid - 1) * t.rowSize),
        t.layout.HasUnusedTag t.bytes cell.1 cell.2 := by
    rw [rowSize, Layout.rowSize, ← Record.columns_eq] at hfit
    exact t.layout.exists_readCells_iff hfit
  rw [← Record.columns_eq, ← not_iff_not, ← hcells]
  constructor
  · intro hsome
    obtain ⟨row, hrow⟩ := Option.ne_none_iff_exists'.mp hsome
    obtain ⟨-, last, hrun⟩ := t.run_of_get hrow
    obtain ⟨vs, hvs, -⟩ := t.layout.exists_readCells_of_row hrun
    exact ⟨vs, last, hvs⟩
  · rintro ⟨vs, c', hvs⟩
    rw [get, if_neg (by omega), Decoder.decodeAt, Layout.row, Decoder.run_bind]
    change Except.toOption
      (((t.layout.readCells (Record.columns α)) >>= _).run t.bytes c).1 ≠ none
    rw [Decoder.run_bind, hvs]
    exact Option.some_ne_none _

/-- Without coded indexes every row can be read. -/
theorem isSome_get (hcols : ∀ col ∈ (Record.table α).columns, col.isCoded = false) {rid : Nat}
    (h1 : 1 ≤ rid) (h2 : rid ≤ t.rowCount) : (t.get rid).isSome := by
  rw [Option.isSome_iff_ne_none, ne_eq, t.get_eq_none_iff h1 h2]
  rintro ⟨cell, hcell, hunused⟩
  exact t.layout.not_hasUnusedTag (hcols _ (t.layout.mem_of_mem_cellPlaces hcell)) hunused

end Table

namespace TableStream

/-- The bytes that go with a table, if it is one of those that have some. -/
theorem lookup_slices (p : TableId → Bool) (slice : TableId → ByteArray) (t : TableId) :
    ((TableId.all.filter p).map fun t => (t, slice t)).lookup t =
      if p t then some (slice t) else none := by
  split
  · next hp => exact List.lookup_graph slice (List.mem_filter.mpr ⟨TableId.mem_all t, hp⟩)
  · next hp =>
    rw [List.lookup_eq_none_iff]
    intro entry hentry
    obtain ⟨u, hu, rfl⟩ := List.mem_map.mp hentry
    refine bne_iff_ne.mpr fun htable => hp ?_
    obtain rfl : t = u := htable
    exact (List.mem_filter.mp hu).2

variable (s : TableStream) (α : Type) [Record α]

/-- All rows of a table that can be read by their numbers, in order. -/
def readableRows : List (Row α) :=
  (List.range' 1 (s.rows (Record.table α))).filterMap (s.row α)

variable {α}

/-- A table is made of the bytes that go with it, if they are enough for its rows. -/
theorem exists_table {bytes : ByteArray} (hslice : s.slice? (Record.table α) = some bytes)
    (hfits : s.rows (Record.table α) * s.layout.rowSize (Record.table α) ≤ bytes.size) :
    ∃ t : Table α, s.table α = some t ∧ t.rowCount = s.rows (Record.table α) ∧
      t.layout = s.layout ∧ t.bytes = bytes := by
  have htable : Table.ofBytes (α := α) bytes (s.rows (Record.table α)) s.layout =
      .ok ⟨bytes, _, s.layout, hfits⟩ := dif_pos hfits
  refine ⟨⟨bytes, _, s.layout, hfits⟩, ?_, rfl, rfl, rfl⟩
  rw [table, hslice]
  exact congrArg Except.toOption htable

theorem parts_of_table {t : Table α} (h : s.table α = some t) :
    t.rowCount = s.rows (Record.table α) ∧ t.layout = s.layout := by
  simp only [table, Option.bind_eq_bind, Option.bind_eq_some_iff] at h
  obtain ⟨bytes, -, ht⟩ := h
  rw [Table.ofBytes] at ht
  split at ht <;> cases ht
  exact ⟨rfl, rfl⟩

theorem rowCount_of_table {t : Table α} (h : s.table α = some t) :
    t.rowCount = s.rows (Record.table α) := (s.parts_of_table h).1

theorem row_eq_get {t : Table α} (h : s.table α = some t) (rid : Nat) :
    s.row α rid = t.get rid := by
  simp [row, h]

theorem rid_of_row {rid : Nat} {row : Row α} (h : s.row α rid = some row) :
    row.rid = rid ∧ 1 ≤ rid ∧ rid ≤ s.rows (Record.table α) := by
  cases ht : s.table α with
  | none => simp [TableStream.row, ht] at h
  | some t =>
    rw [s.row_eq_get ht] at h
    rw [← s.rowCount_of_table ht]
    exact t.rid_of_get h

theorem mem_readableRows {row : Row α} :
    row ∈ s.readableRows α ↔ s.row α row.rid = some row := by
  constructor
  · intro h
    obtain ⟨rid, -, hread⟩ := List.mem_filterMap.mp h
    rw [(s.rid_of_row hread).1, hread]
  · intro h
    obtain ⟨-, h1, h2⟩ := s.rid_of_row h
    exact List.mem_filterMap.mpr ⟨row.rid, List.mem_range'_1.mpr ⟨h1, by omega⟩, h⟩

theorem nodup_readableRows : (s.readableRows α).Nodup := by
  refine List.Nodup.filterMap ?_ List.nodup_range'
  intro rid rid' row h h'
  rw [← (s.rid_of_row h).1, ← (s.rid_of_row h').1]

/-- The rows in order are those read by their numbers, up to the first that cannot be. -/
theorem rowList_eq :
    s.rowList α =
      (((List.range' 1 (s.rows (Record.table α))).map (s.row α)).takeWhile
        Option.isSome).filterMap id := by
  cases ht : s.table α with
  | none =>
    have hrow : ∀ rid, s.row α rid = none := by
      intro rid
      simp [row, ht]
    cases s.rows (Record.table α) <;> simp [rowList, ht, hrow, List.range'_succ]
  | some t =>
    have hrow : s.row α = t.get := funext (s.row_eq_get ht)
    rw [hrow, ← s.rowCount_of_table ht, ← t.toList_eq]
    simp [rowList, ht]

theorem row_of_mem_rowList {row : Row α} (h : row ∈ s.rowList α) : s.row α row.rid = some row := by
  rw [rowList_eq] at h
  obtain ⟨r, hr, hrow⟩ := List.mem_filterMap.mp h
  obtain ⟨rid, -, hread⟩ := List.mem_map.mp (List.takeWhile_sublist _ |>.mem hr)
  have hread : s.row α rid = some row := hread.trans hrow
  rw [(s.rid_of_row hread).1, hread]

/-- A row is among those in order if it and all rows before it can be read. -/
theorem mem_rowList {row : Row α} (h : s.row α row.rid = some row)
    (hbefore : ∀ rid, 1 ≤ rid → rid < row.rid → (s.row α rid).isSome) : row ∈ s.rowList α := by
  obtain ⟨-, h1, h2⟩ := s.rid_of_row h
  obtain ⟨before, hrid⟩ : ∃ before, row.rid = before + 1 := ⟨row.rid - 1, by omega⟩
  obtain ⟨after, hcount⟩ : ∃ after, s.rows (Record.table α) = before + (after + 1) :=
    ⟨s.rows (Record.table α) - row.rid, by omega⟩
  have hrange : List.range' 1 (s.rows (Record.table α)) =
      List.range' 1 before ++ row.rid :: List.range' (row.rid + 1) after := by
    rw [hcount, hrid, ← List.range'_append_1, Nat.add_comm 1 before, List.range'_succ]
  have hreadable : ∀ r ∈ (List.range' 1 before).map (s.row α), r.isSome = true := by
    intro r hr
    obtain ⟨rid, hmem, rfl⟩ := List.mem_map.mp hr
    have hbounds := List.mem_range'_1.mp hmem
    exact hbefore rid hbounds.1 (by omega)
  rw [rowList_eq, hrange, List.map_append, List.takeWhile_append_of_pos hreadable, List.map_cons, h,
    List.takeWhile_cons_of_pos rfl, List.filterMap_append]
  exact List.mem_append_right _ List.mem_cons_self

/-- Where every row can be read, the rows in order are all of them. -/
theorem rowList_eq_readableRows
    (h : ∀ rid, 1 ≤ rid → rid ≤ s.rows (Record.table α) → (s.row α rid).isSome) :
    s.rowList α = s.readableRows α := by
  have hall : ∀ r ∈ (List.range' 1 (s.rows (Record.table α))).map (s.row α),
      r.isSome = true := by
    intro r hr
    obtain ⟨rid, hrid, rfl⟩ := List.mem_map.mp hr
    have hrange := List.mem_range'_1.mp hrid
    exact h rid hrange.1 (by omega)
  rw [rowList_eq, List.takeWhile_eq_self_iff.2 hall, List.filterMap_map]
  rfl

/-- A table without coded indexes is read in full. -/
theorem rowList_eq_of_uncoded
    (hcols : ∀ col ∈ (Record.table α).columns, col.isCoded = false) :
    s.rowList α = s.readableRows α := by
  cases ht : s.table α with
  | none =>
    have hrow : s.row α = fun _ => none := by
      funext rid
      simp [row, ht]
    simp [rowList, ht, readableRows, hrow]
  | some t =>
    apply s.rowList_eq_readableRows
    intro rid h1 h2
    rw [s.row_eq_get ht]
    exact t.isSome_get hcols h1 (by rw [s.rowCount_of_table ht]; exact h2)

end TableStream
end MethodAtlas
