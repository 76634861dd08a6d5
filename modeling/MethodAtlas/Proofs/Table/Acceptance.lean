import MethodAtlas.Proofs.Outcome
import MethodAtlas.Proofs.Bytes.Reads
import MethodAtlas.Proofs.Table.RowBytes

/-!
# Which streams of tables are accepted

The head of a stream states which tables are present, how many rows each has and how wide heap
offsets are; here that is read off the bytes by position (`TableStream.statedLayout`). A stream is
accepted exactly if its head is whole, names tables that there are, and the bytes behind it are
enough for all rows (`TableStream.Acceptable`). Each table then lies right behind the tables in
front of it, and a row of it is missing only where a coded index has an unused tag:
`TableStream.accepted_and_laid_out`.
-/
namespace MethodAtlas

theorem Bytes.numberAt_extract {bytes : ByteArray} {start stop i width : Nat}
    (h : start + i + width ≤ stop) :
    numberAt (bytes.extract start stop) i width = numberAt bytes (start + i) width := by
  rw [numberAt, ByteArray.extract_extract, ← Nat.add_assoc, Nat.min_eq_left h, numberAt]

namespace TableId

/-- The tables in front of a table. -/
def before (t : TableId) : List TableId := all.takeWhile (· ≠ t)

theorem before_eq {front behind : List TableId} {t : TableId} (h : all = front ++ t :: behind) :
    t.before = front := by
  have hnodup : (front ++ t :: behind).Nodup := h ▸ by decide
  have hfront : ∀ u ∈ front, decide (u ≠ t) = true := by
    intro u hu
    rw [decide_eq_true_iff]
    rintro rfl
    exact List.disjoint_of_nodup_append hnodup hu List.mem_cons_self
  rw [before, h, List.takeWhile_append_of_pos hfront, List.takeWhile_cons_of_neg (by simp),
    List.append_nil]

end TableId

namespace Layout
variable (l : Layout)

/-- The bytes of a table. -/
def tableSize (t : TableId) : Nat := l.rows t * l.rowSize t

/-- The bytes of tables side by side. -/
def tablesSize : List TableId → Nat
  | [] => 0
  | t :: ts => l.tableSize t + tablesSize ts

/-- Where in the stream the first row of a table lies: right behind the tables in front of it. -/
def tablePlace (t : TableId) : Nat := l.tablesOffset + l.tablesSize t.before

theorem tablesSize_append (ts us : List TableId) :
    l.tablesSize (ts ++ us) = l.tablesSize ts + l.tablesSize us := by
  induction ts with
  | nil => simp [tablesSize]
  | cons t ts ih => rw [List.cons_append, tablesSize, ih, tablesSize, Nat.add_assoc]

/-- Tables without rows take no bytes. -/
theorem tablesSize_eq_zero {ts : List TableId} (h : ∀ t ∈ ts, l.rows t = 0) :
    l.tablesSize ts = 0 := by
  induction ts with
  | nil => rfl
  | cons t ts ih =>
    obtain ⟨ht, hts⟩ := List.forall_mem_cons.mp h
    rw [tablesSize, ih hts, tableSize, ht, Nat.zero_mul]

/-- Tags are unused in a part of some bytes as they are in the whole. -/
theorem exists_hasUnusedTag_extract {bytes : ByteArray} {start stop position : Nat}
    {cols : List Column} (h : start + position + Cells.size l.width cols ≤ stop) :
    (∃ cell ∈ l.cellPlaces cols position,
      l.HasUnusedTag (bytes.extract start stop) cell.1 cell.2) ↔
    ∃ cell ∈ l.cellPlaces cols (start + position), l.HasUnusedTag bytes cell.1 cell.2 := by
  induction cols generalizing position with
  | nil => simp [cellPlaces]
  | cons col cols ih =>
    rw [Cells.size] at h
    have hcell : l.HasUnusedTag (bytes.extract start stop) col position ↔
        l.HasUnusedTag bytes col (start + position) := by
      refine exists_congr fun k => and_congr_right ?_
      rintro rfl
      have hwidth : start + position + l.codedBytes k ≤ stop := by
        rw [width] at h
        omega
      rw [Bytes.numberAt_extract hwidth]
    have hcells := @ih (position + l.width col) (by omega)
    rw [← Nat.add_assoc] at hcells
    rw [cellPlaces, cellPlaces, List.exists_mem_cons_iff, List.exists_mem_cons_iff, hcell, hcells]

end Layout

namespace TableStream

section Stated
variable (bytes : ByteArray)

/-- The bits of the present tables. -/
def statedValid : Nat := Bytes.numberAt bytes 8 8

/-- The bits that tell how wide heap offsets are, and whether four bytes follow the row counts. -/
def statedFlags : Nat := Bytes.numberAt bytes 6 1

/-- The tables of some tables that are present. -/
def presentOf (ts : List TableId) : List TableId :=
  ts.filter fun t => (statedValid bytes).testBit t.number

/-- The rows of a table, if it is present: a number of four bytes behind those of the present
tables in front of it. -/
def statedRows (t : TableId) : Option Nat :=
  if (statedValid bytes).testBit t.number then
    some (Bytes.numberAt bytes (headerSize + 4 * (presentOf bytes t.before).length) 4)
  else none

/-- The row counts and widths that the head states. -/
def statedLayout : Layout where
  rowCounts := TableId.all.map (statedRows bytes)
  wideStrings := (statedFlags bytes).testBit 0
  wideGuids := (statedFlags bytes).testBit 1
  wideBlobs := (statedFlags bytes).testBit 2
  tablesOffset := headerSize + 4 * (presentOf bytes TableId.all).length
    + if (statedFlags bytes).testBit 6 then 4 else 0

/-- What an accepted stream is read to. -/
def statedStream : TableStream where
  majorVersion := Bytes.numberAt bytes 4 1
  minorVersion := Bytes.numberAt bytes 5 1
  valid := statedValid bytes
  sorted := Bytes.numberAt bytes 16 8
  layout := statedLayout bytes
  slices := (TableId.all.filter fun t => (statedLayout bytes).rows t ≠ 0).map fun t =>
    (t, bytes.extract ((statedLayout bytes).tablePlace t)
      ((statedLayout bytes).tablePlace t + (statedLayout bytes).tableSize t))

/-- The head is whole and names tables that there are, and the bytes are enough for all rows. -/
structure Acceptable : Prop where
  header : headerSize ≤ bytes.size
  present : statedValid bytes ≠ 0
  known : ∀ i, (statedValid bytes).testBit i → i < TableId.count
  counts : headerSize + 4 * (presentOf bytes TableId.all).length ≤ bytes.size
  rows : (∃ t, (statedLayout bytes).rows t ≠ 0) →
    (statedLayout bytes).tablesOffset + (statedLayout bytes).tablesSize TableId.all ≤ bytes.size

end Stated

/-- The header is read wherever it is whole. -/
theorem decode_header (bytes : ByteArray) : header.decode bytes =
    if headerSize ≤ bytes.size then
      .ok (Bytes.numberAt bytes 4 1, Bytes.numberAt bytes 5 1, statedValid bytes,
        Bytes.numberAt bytes 16 8)
    else .error .outOfBounds := by
  have hneed : (Decoder.need headerSize).run bytes .start =
      if 0 + headerSize ≤ bytes.size then (.ok (), .start) else (.error .outOfBounds, .start) := rfl
  rw [Decoder.decode, header, Decoder.run_bind, hneed, Nat.zero_add]
  by_cases hfit : headerSize ≤ bytes.size
  · have h24 : 24 ≤ bytes.size := hfit
    have hstart : Cursor.start.position = 0 := rfl
    simp (disch := omega) only [if_pos hfit, Decoder.run_bind, Decoder.run_skip, Decoder.run_number,
      Cursor.position_advance, hstart, if_pos]
    rfl
  · rw [if_neg hfit, if_neg hfit]

theorem presentOf_cons (bytes : ByteArray) (t : TableId) (ts : List TableId) :
    presentOf bytes (t :: ts) =
      if (statedValid bytes).testBit t.number then t :: presentOf bytes ts
      else presentOf bytes ts := List.filter_cons

theorem presentOf_append (bytes : ByteArray) (ts us : List TableId) :
    presentOf bytes (ts ++ us) = presentOf bytes ts ++ presentOf bytes us := List.filter_append ..

/-- The counts of the present tables are read where they are stated, if they are there. -/
theorem run_counts {bytes : ByteArray} {front ts : List TableId} (h : TableId.all = front ++ ts)
    {c : Cursor} (hc : c.position = headerSize + 4 * (presentOf bytes front).length)
    (hfit : headerSize + 4 * (presentOf bytes TableId.all).length ≤ bytes.size) :
    (Layout.counts (statedValid bytes) ts).run bytes c =
      (.ok (ts.map (statedRows bytes)), c.advance (4 * (presentOf bytes ts).length)) := by
  induction ts generalizing front c with
  | nil => rfl
  | cons t ts ih =>
    have hfront : TableId.all = (front ++ [t]) ++ ts := by rw [h, List.append_assoc]; rfl
    rw [Layout.counts, List.map_cons, statedRows, TableId.before_eq h, presentOf_cons, ← hc]
    by_cases hbit : (statedValid bytes).testBit t.number = true
    · have hroom : c.position + 4 ≤ bytes.size := by
        rw [h, presentOf_append, presentOf_cons, if_pos hbit, List.length_append,
          List.length_cons] at hfit
        omega
      have hrows : (some <$> Decoder.number 4).run bytes c =
          (.ok (some (Bytes.numberAt bytes c.position 4)), c.advance 4) := by
        rw [map_eq_pure_bind, Decoder.run_bind, Decoder.run_number, if_pos hroom]
        rfl
      have hnext : (c.advance 4).position =
          headerSize + 4 * (presentOf bytes (front ++ [t])).length := by
        rw [presentOf_append, presentOf_cons, if_pos hbit, List.length_append,
          Cursor.position_advance, hc]
        simp [presentOf]
        omega
      simp only [if_pos hbit, Decoder.run_bind, hrows, ih hfront hnext]
      rw [Cursor.advance_advance, List.length_cons, Nat.mul_succ, Nat.add_comm]
      rfl
    · have hnext : c.position = headerSize + 4 * (presentOf bytes (front ++ [t])).length := by
        rw [presentOf_append, presentOf_cons, if_neg hbit, hc]
        simp [presentOf]
      simp only [if_neg hbit, Decoder.run_bind, Decoder.run_pure, ih hfront hnext]

/-- The counts of the present tables are read only if they are there. -/
theorem le_of_run_counts {bytes : ByteArray} {ts : List TableId} {c c' : Cursor}
    {counts : List (Option Nat)} (hc : c.position ≤ bytes.size)
    (h : (Layout.counts (statedValid bytes) ts).run bytes c = (.ok counts, c')) :
    c.position + 4 * (presentOf bytes ts).length ≤ bytes.size := by
  induction ts generalizing c c' counts with
  | nil => exact hc
  | cons t ts ih =>
    rw [Layout.counts] at h
    rw [presentOf_cons]
    by_cases hbit : (statedValid bytes).testBit t.number = true
    · simp only [if_pos hbit, map_eq_pure_bind, bind_assoc, pure_bind] at h
      obtain ⟨count, mid, hcount, h⟩ := Decoder.run_bind_eq_ok h
      obtain ⟨rest, last, hrest, -⟩ := Decoder.run_bind_eq_ok h
      obtain rfl := Decoder.advance_of_run_number hcount
      rw [Decoder.run_number] at hcount
      split at hcount
      · next hroom =>
        have hle := ih hroom hrest
        rw [Cursor.position_advance] at hle
        rw [if_pos hbit, List.length_cons]
        omega
      · cases hcount
    · simp only [if_neg hbit, pure_bind] at h
      obtain ⟨rest, last, hrest, -⟩ := Decoder.run_bind_eq_ok h
      rw [if_neg hbit]
      exact ih hc hrest

theorem exists_byte? {bytes : ByteArray} {i : Nat} (hi : i < bytes.size) :
    ∃ b, Bytes.byte? bytes i = some b ∧ b.toNat = Bytes.numberAt bytes i 1 := by
  have hwithin : (Cursor.ofPosition i).position ≤ bytes.size := Nat.le_of_lt hi
  obtain ⟨text, hahead⟩ := Cursor.Ahead.exists_of_le hwithin
  cases text with
  | nil => exact absurd hahead.size_eq (Nat.ne_of_gt hi)
  | cons b text =>
    have hfirst : (Cursor.ofPosition i).Ahead bytes ([b] ++ text) := hahead
    have hbyte : bytes.extract i (i + 1) = ⟨#[b]⟩ := hfirst.extract_eq
    rw [Bytes.numberAt, hbyte]
    exact ⟨b, hahead.byte?_eq, rfl⟩

/-- All bits of a number are those of tables, exactly if it is smaller than the next bit. -/
theorem known_iff (valid : Nat) :
    (∀ i, valid.testBit i → i < TableId.count) ↔ valid < 1 <<< TableId.count := by
  rw [Nat.one_shiftLeft]
  constructor
  · intro h
    refine Nat.lt_pow_two_of_testBit _ fun i hi => ?_
    by_contra hbit
    exact Nat.not_lt.mpr hi (h i (by simpa using hbit))
  · intro hlt i hbit
    by_contra hge
    have hpow := Nat.pow_le_pow_right (n := 2) (by decide) (Nat.not_lt.mp hge)
    rw [Nat.testBit_lt_two_pow (Nat.lt_of_lt_of_le hlt hpow)] at hbit
    cases hbit

/-- The head is read to what it states, exactly if it names tables that there are and the counts
are there. -/
theorem ofBytes_layout_eq_ok_iff {bytes : ByteArray} (hheader : headerSize ≤ bytes.size)
    {l : Layout} : Layout.ofBytes bytes (statedValid bytes) = .ok l ↔
      (∀ i, (statedValid bytes).testBit i → i < TableId.count) ∧
      headerSize + 4 * (presentOf bytes TableId.all).length ≤ bytes.size ∧
      l = statedLayout bytes := by
  have h6 : 6 < bytes.size := Nat.lt_of_lt_of_le (by decide) hheader
  obtain ⟨flags, hflags, hnumber⟩ := exists_byte? h6
  rw [known_iff, Layout.ofBytes, ← Nat.not_le]
  by_cases hunknown : 1 <<< TableId.count ≤ statedValid bytes
  · simp [hunknown]
  · rw [if_neg hunknown]
    by_cases hfit : headerSize + 4 * (presentOf bytes TableId.all).length ≤ bytes.size
    · have hcounts := run_counts (show TableId.all = [] ++ TableId.all from rfl)
        (c := .ofPosition Layout.countsOffset) rfl hfit
      rw [hcounts]
      simp only [hflags, hnumber]
      change (.ok (statedLayout bytes) : Except Fault Layout) = .ok l ↔ _
      simp [hunknown, hfit, eq_comm]
    · have hcounts : ∀ counts c', (Layout.counts (statedValid bytes) TableId.all).run bytes
          (.ofPosition Layout.countsOffset) ≠ (.ok counts, c') :=
        fun counts c' hrun => hfit (le_of_run_counts hheader hrun)
      split
      · simp [hfit]
      · next hrun => exact absurd hrun (hcounts _ _)

/-- Where tables start at an offset, their bytes are found exactly if they are all there, and each
lies right behind those in front of it. -/
theorem sliceTables_eq_ok_iff {bytes : ByteArray} {l : Layout} {front ts : List TableId}
    (h : TableId.all = front ++ ts) (slices : List (TableId × ByteArray)) :
    sliceTables bytes l ts (l.tablesOffset + l.tablesSize front) = .ok slices ↔
      ((∃ t ∈ ts, l.rows t ≠ 0) →
        l.tablesOffset + l.tablesSize (front ++ ts) ≤ bytes.size) ∧
      slices = (ts.filter fun t => l.rows t ≠ 0).map fun t =>
        (t, bytes.extract (l.tablePlace t) (l.tablePlace t + l.tableSize t)) := by
  induction ts generalizing front slices with
  | nil => simp [sliceTables, eq_comm]
  | cons t ts ih =>
    have hfront : TableId.all = (front ++ [t]) ++ ts := by rw [h, List.append_assoc]; rfl
    have hplace : l.tablePlace t = l.tablesOffset + l.tablesSize front := by
      rw [Layout.tablePlace, TableId.before_eq h]
    have hnext : l.tablesOffset + l.tablesSize (front ++ [t]) = l.tablePlace t + l.tableSize t := by
      rw [hplace, l.tablesSize_append, ← Nat.add_assoc]
      rfl
    have hrest := ih hfront
    rw [hnext, List.append_assoc, List.singleton_append] at hrest
    rw [sliceTables, ← hplace]
    by_cases hrows : l.rows t = 0
    · have hsame : l.tablePlace t + l.tableSize t = l.tablePlace t := by
        rw [Layout.tableSize, hrows, Nat.zero_mul, Nat.add_zero]
      rw [if_pos hrows, ← hsame, hrest, List.exists_mem_cons_iff,
        List.filter_cons_of_neg (by simpa using hrows)]
      simp only [hrows, ne_eq, not_true_eq_false, false_or]
    · have htotal : l.tablesOffset + l.tablesSize (front ++ t :: ts) =
          l.tablePlace t + l.tableSize t + l.tablesSize ts := by
        rw [hplace, l.tablesSize_append, Layout.tablesSize]
        omega
      have hneed : (∃ u ∈ t :: ts, l.rows u ≠ 0) := ⟨t, List.mem_cons_self, hrows⟩
      rw [if_neg hrows, List.filter_cons_of_pos (by simpa using hrows), List.map_cons]
      simp only [hneed, true_implies]
      rw [htotal] at hrest ⊢
      change (if bytes.size < l.tablePlace t + l.tableSize t then _ else _) = _ ↔ _
      by_cases hfit : bytes.size < l.tablePlace t + l.tableSize t
      · rw [if_pos hfit]
        exact ⟨nofun, fun hall => by omega⟩
      · have hbehind : ((∃ u ∈ ts, l.rows u ≠ 0) →
            l.tablePlace t + l.tableSize t + l.tablesSize ts ≤ bytes.size) ↔
            l.tablePlace t + l.tableSize t + l.tablesSize ts ≤ bytes.size := by
          refine ⟨fun himp => ?_, fun hall _ => hall⟩
          by_cases hmore : ∃ u ∈ ts, l.rows u ≠ 0
          · exact himp hmore
          · have hnone : ∀ u ∈ ts, l.rows u = 0 := by simpa using hmore
            rw [l.tablesSize_eq_zero hnone]
            omega
        rw [if_neg hfit, Outcome.bind_eq_ok]
        change (∃ rest, sliceTables bytes l ts (l.tablePlace t + l.tableSize t) = .ok rest ∧ _) ↔ _
        simp only [hrest, hbehind]
        constructor
        · rintro ⟨rest, ⟨hall, rfl⟩, hslices⟩
          cases hslices
          exact ⟨hall, rfl⟩
        · rintro ⟨hall, rfl⟩
          exact ⟨_, ⟨hall, rfl⟩, rfl⟩

theorem ofBytes_eq_ok_iff {bytes : ByteArray} {s : TableStream} :
    ofBytes bytes = .ok s ↔ Acceptable bytes ∧ s = statedStream bytes := by
  rw [ofBytes, decode_header]
  by_cases hheader : headerSize ≤ bytes.size
  · rw [if_pos hheader, Outcome.ok_bind]
    by_cases hpresent : statedValid bytes = 0
    · simp only [hpresent]
      exact ⟨nofun, fun h => absurd hpresent h.1.present⟩
    · have hslices := @sliceTables_eq_ok_iff bytes (statedLayout bytes) [] TableId.all rfl
      have hall : (∃ t ∈ TableId.all, (statedLayout bytes).rows t ≠ 0) ↔
          ∃ t, (statedLayout bytes).rows t ≠ 0 := by simp [TableId.mem_all]
      rw [hall] at hslices
      simp only [if_neg hpresent, Outcome.bind_eq_ok, ofBytes_layout_eq_ok_iff hheader]
      constructor
      · rintro ⟨l, ⟨hknown, hcounts, rfl⟩, slices, hread, hs⟩
        obtain ⟨hrows, rfl⟩ := (hslices slices).mp hread
        cases hs
        exact ⟨⟨hheader, hpresent, hknown, hcounts, hrows⟩, rfl⟩
      · rintro ⟨h, rfl⟩
        exact ⟨_, ⟨h.known, h.counts, rfl⟩, _, (hslices _).mpr ⟨h.rows, rfl⟩, rfl⟩
  · rw [if_neg hheader]
    exact ⟨nofun, fun h => absurd h.1.header hheader⟩

section Accepted
variable {bytes : ByteArray} {s : TableStream} (h : ofBytes bytes = .ok s)
include h

theorem Acceptable.of_ofBytes : Acceptable bytes := (ofBytes_eq_ok_iff.mp h).1

theorem layout_eq : s.layout = statedLayout bytes := by rw [(ofBytes_eq_ok_iff.mp h).2]; rfl

theorem slices_eq : s.slices = (TableId.all.filter fun t => s.rows t ≠ 0).map fun t =>
    (t, bytes.extract (s.layout.tablePlace t) (s.layout.tablePlace t + s.layout.tableSize t)) := by
  rw [(ofBytes_eq_ok_iff.mp h).2]
  rfl

theorem slice?_eq (t : TableId) : s.slice? t = if s.rows t = 0 then none else
    some (bytes.extract (s.layout.tablePlace t)
      (s.layout.tablePlace t + s.layout.tableSize t)) := by
  rw [slice?, slices_eq h, lookup_slices]
  simp

/-- The rows of a table lie within the bytes. -/
theorem tablePlace_add_le {t : TableId} (ht : s.rows t ≠ 0) :
    s.layout.tablePlace t + s.layout.tableSize t ≤ bytes.size := by
  obtain ⟨behind, hall⟩ : ∃ behind, TableId.all = t.before ++ t :: behind := by
    obtain ⟨front, behind, hall⟩ := List.append_of_mem (TableId.mem_all t)
    exact ⟨behind, by rw [TableId.before_eq hall, hall]⟩
  rw [rows, layout_eq h] at ht
  have hrows := (Acceptable.of_ofBytes h).rows ⟨t, ht⟩
  rw [hall, Layout.tablesSize_append, Layout.tablesSize] at hrows
  rw [layout_eq h, Layout.tablePlace]
  omega

theorem size_slice {t : TableId} (ht : s.rows t ≠ 0) :
    (bytes.extract (s.layout.tablePlace t)
      (s.layout.tablePlace t + s.layout.tableSize t)).size = s.rows t * s.layout.rowSize t := by
  rw [ByteArray.size_extract, Nat.min_eq_left (tablePlace_add_le h ht), Nat.add_sub_cancel_left]
  rfl

variable {α : Type} [Record α]

theorem isSome_table_iff : (s.table α).isSome ↔ s.rows (Record.table α) ≠ 0 := by
  by_cases hrows : s.rows (Record.table α) = 0
  · simp [table, slice?_eq h, hrows]
  · have hslice := slice?_eq h (Record.table α)
    rw [if_neg hrows] at hslice
    obtain ⟨t, ht, -⟩ := s.exists_table hslice (Nat.le_of_eq (size_slice h hrows).symm)
    simp [ht, hrows]

/-- A table is made of the bytes that go with it. -/
theorem of_table {t : Table α} (ht : s.table α = some t) : t.rowCount = s.rows (Record.table α) ∧
    t.layout = s.layout ∧ t.bytes = bytes.extract (s.layout.tablePlace (Record.table α))
      (s.layout.tablePlace (Record.table α) + s.layout.tableSize (Record.table α)) := by
  have hrows : s.rows (Record.table α) ≠ 0 := (isSome_table_iff h).mp (by rw [ht]; rfl)
  have hslice := slice?_eq h (Record.table α)
  rw [if_neg hrows] at hslice
  obtain ⟨u, hu, hparts⟩ := s.exists_table hslice (Nat.le_of_eq (size_slice h hrows).symm)
  rw [ht] at hu
  cases hu
  exact hparts

end Accepted

/-- **Which streams of tables are accepted, and how they are laid out.** A stream is read exactly
if its head is whole, some table is present, every present table is one that there is, and the
bytes hold all row counts and, if there are rows, all rows. Then the tables that have rows lie in
the order of their numbers, each right behind those in front of it and as long as its rows take. A
table can be looked at exactly if it has rows, and a row of it is missing exactly if one of its
coded indexes has a tag that selects no table. -/
theorem accepted_and_laid_out (bytes : ByteArray) :
    ((∃ s, ofBytes bytes = .ok s) ↔ Acceptable bytes) ∧
    ∀ s, ofBytes bytes = .ok s → s.layout = statedLayout bytes ∧
      s.slices = (TableId.all.filter fun t => s.rows t ≠ 0).map (fun t =>
        (t, bytes.extract (s.layout.tablePlace t)
          (s.layout.tablePlace t + s.layout.tableSize t))) ∧
      (∀ t slice, (t, slice) ∈ s.slices → slice.size = s.rows t * s.layout.rowSize t ∧
        s.layout.tablePlace t + slice.size ≤ bytes.size) ∧
      ∀ (α : Type) [Record α], ((s.table α).isSome ↔ s.rows (Record.table α) ≠ 0) ∧
        ∀ t, s.table α = some t → ∀ rid, 1 ≤ rid → rid ≤ s.rows (Record.table α) →
          (t.get rid = none ↔ ∃ cell ∈ s.layout.cellPlaces (Record.table α).columns
              (s.layout.tablePlace (Record.table α) +
                (rid - 1) * s.layout.rowSize (Record.table α)),
            s.layout.HasUnusedTag bytes cell.1 cell.2) := by
  refine ⟨?_, fun s h => ⟨layout_eq h, slices_eq h, ?_, fun α _ => ⟨isSome_table_iff h, ?_⟩⟩⟩
  · constructor
    · rintro ⟨s, h⟩
      exact .of_ofBytes h
    · intro h
      exact ⟨_, ofBytes_eq_ok_iff.mpr ⟨h, rfl⟩⟩
  · intro t slice hmem
    rw [slices_eq h] at hmem
    obtain ⟨u, hu, hpair⟩ := List.mem_map.mp hmem
    cases hpair
    have hrows : s.rows t ≠ 0 := by simpa using (List.mem_filter.mp hu).2
    rw [size_slice h hrows]
    exact ⟨rfl, tablePlace_add_le h hrows⟩
  · intro t ht rid h1 h2
    obtain ⟨hcount, hlayout, hbytes⟩ := of_table h ht
    rw [t.get_eq_none_iff h1 (hcount ▸ h2), hlayout, hbytes, Table.rowSize, hlayout]
    refine s.layout.exists_hasUnusedTag_extract ?_
    rw [Nat.add_assoc]
    exact Nat.add_le_add_left (rowEnd_le h1 h2) _

end TableStream

/-- A stream that holds three types, the second of which names a base type in a table that there is
not. -/
def Sample.tornStream : ByteArray :=
  ⟨#[0, 0, 0, 0, 2, 0, 0, 1, 4, 0, 0, 0, 0, 0, 0, 0, 0, 0, 0, 0, 0, 0, 0, 0, 3, 0, 0, 0]⟩
    ++ tornRows

theorem TableStream.accepted_and_laid_out_sample :
    Acceptable Sample.tornStream ∧ ∃ s, ofBytes Sample.tornStream = .ok s ∧
      s.layout.tablePlace .typeDef = 28 ∧ (s.table MethodDefinition).isNone ∧
      ∃ t, s.table TypeDefinition = some t ∧ (t.get 1).isSome ∧ t.get 2 = none := by
  let l := Sample.typesLayout
  have hparts : statedLayout Sample.tornStream = l ∧ statedValid Sample.tornStream = 4 ∧
      Sample.tornStream.size = 70 ∧ (presentOf Sample.tornStream TableId.all).length = 1 ∧
      l.tablesSize TableId.all = 42 ∧ l.tablePlace .typeDef = 28 ∧
      l.cellPlaces TableId.typeDef.columns 28 = [(.fixed 4, 28), (.string, 32), (.string, 34),
        (.coded .typeDefOrRef, 36), (.row .field, 38), (.row .methodDef, 40)] ∧
      l.rowSize .typeDef = 14 ∧
      (.coded .typeDefOrRef, 50) ∈ l.cellPlaces TableId.typeDef.columns 42 ∧
      l.codedBytes .typeDefOrRef = 2 ∧ Bytes.numberAt Sample.tornStream 36 2 = 0 ∧
      Bytes.numberAt Sample.tornStream 50 2 = 3 := by
    decide +kernel
  obtain ⟨hlayout, hvalid, hsize, hpresent, htotal, hplace, hfirst, hrow, hsecond, hwidth, hbase,
    htorn⟩ := hparts
  have hacceptable : Acceptable Sample.tornStream := by
    refine ⟨?_, ?_, ?_, ?_, fun _ => ?_⟩
    · rw [hsize]
      decide
    · rw [hvalid]
      decide
    · rw [hvalid, known_iff]
      decide
    · rw [hpresent, hsize]
      decide
    · rw [hlayout, htotal, hsize]
      decide
  obtain ⟨haccepted, hlaid⟩ := accepted_and_laid_out Sample.tornStream
  obtain ⟨s, hs⟩ := haccepted.mpr hacceptable
  obtain ⟨hread, -, -, htables⟩ := hlaid s hs
  replace hread : s.layout = l := hread.trans hlayout
  have htypeRows : s.rows .typeDef = 3 := by rw [rows, hread]; rfl
  have hmethodRows : s.rows .methodDef = 0 := by rw [rows, hread]; rfl
  obtain ⟨hsome, htypes⟩ := htables TypeDefinition
  obtain ⟨t, ht⟩ := Option.isSome_iff_exists.mp (hsome.mpr (htypeRows ▸ by decide))
  have hmissing (rid : Nat) (h1 : 1 ≤ rid) (h3 : rid ≤ 3) : t.get rid = none ↔
      ∃ cell ∈ l.cellPlaces TableId.typeDef.columns (28 + (rid - 1) * 14),
        l.HasUnusedTag Sample.tornStream cell.1 cell.2 := by
    rw [htypes t ht rid h1 (htypeRows ▸ h3), hread]
    exact hplace ▸ hrow ▸ Iff.rfl
  refine ⟨hacceptable, s, hs, hread ▸ hplace, ?_, t, ht, ?_, ?_⟩
  · have hnone := (htables MethodDefinition).1
    simpa [Record.table, hmethodRows] using hnone
  · rw [Option.isSome_iff_ne_none, ne_eq, hmissing 1 (by decide) (by decide), hfirst]
    rintro ⟨cell, hcell, k, hk, htag⟩
    simp only [List.mem_cons, List.not_mem_nil, or_false] at hcell
    rcases hcell with rfl | rfl | rfl | rfl | rfl | rfl <;> cases hk
    rw [hwidth, hbase] at htag
    cases htag
  · rw [hmissing 2 (by decide) (by decide)]
    exact ⟨_, hsecond, .typeDefOrRef, rfl, by rw [hwidth, htorn]; rfl⟩

end MethodAtlas
