import MethodAtlas.Proofs.Table.Rows
import MethodAtlas.Table.Stored

/-!
# The bytes of a row

A row that is read takes just the bytes that it is measured by, and nothing else of the data counts
for what it says (`Decoder.IsLocal`). So reading rows in turn, each from where the one before it
ended, and reading each where its number puts it are the same, until a row cannot be read:
`Table.rows_by_number_and_in_turn`. Behind such a row only reading by number goes on, as the sample
shows.
-/
namespace MethodAtlas

/-- Bytes that are the same over a stretch are the same over each part of it. -/
theorem Bytes.extract_congr {bytes other : ByteArray} {start stop i j : Nat}
    (h : other.extract start stop = bytes.extract start stop) (hi : start ≤ i) (hij : i ≤ j)
    (hj : j ≤ stop) : other.extract i j = bytes.extract i j := by
  have hpart : ∀ data : ByteArray,
      (data.extract start stop).extract (i - start) (j - start) = data.extract i j := by
    intro data
    rw [ByteArray.extract_extract, Nat.add_sub_of_le hi, Nat.add_sub_of_le (hi.trans hij),
      Nat.min_eq_left hj]
  rw [← hpart other, h, hpart bytes]

namespace Decoder
variable {α β : Type}

/-- A decoder that goes forward and reads only what it passes over: what it answers somewhere, it
answers wherever the bytes up to where it ends are the same. -/
structure IsLocal (d : Decoder α) : Prop where
  le : ∀ {bytes : ByteArray} {c c' : Cursor} {a : α}, d.run bytes c = (.ok a, c') →
    c.position ≤ c'.position
  same : ∀ {bytes other : ByteArray} {c c' : Cursor} {a : α}, d.run bytes c = (.ok a, c') →
    c'.position ≤ other.size →
    other.extract c.position c'.position = bytes.extract c.position c'.position →
    d.run other c = (.ok a, c')

namespace IsLocal

theorem pure (a : α) : IsLocal (Pure.pure a) where
  le h := by cases h; exact Nat.le_refl _
  same h _ _ := by cases h; rfl

theorem fail (e : Fault) : IsLocal (Decoder.fail e : Decoder α) where
  le h := by cases h
  same h _ _ := by cases h

theorem cursor : IsLocal Decoder.cursor where
  le h := by cases h; exact Nat.le_refl _
  same h _ _ := by cases h; rfl

theorem bind {d : Decoder α} {f : α → Decoder β} (hd : d.IsLocal) (hf : ∀ a, (f a).IsLocal) :
    (d >>= f).IsLocal where
  le h := by
    obtain ⟨a, mid, hfirst, hrest⟩ := run_bind_eq_ok h
    exact (hd.le hfirst).trans ((hf a).le hrest)
  same := by
    intro bytes other c c' b h hsize hextract
    obtain ⟨a, mid, hfirst, hrest⟩ := run_bind_eq_ok h
    have hmid := hd.le hfirst
    have hstop := (hf a).le hrest
    rw [run_bind, hd.same hfirst (hstop.trans hsize)
      (Bytes.extract_congr hextract (Nat.le_refl _) hmid hstop)]
    exact (hf a).same hrest hsize (Bytes.extract_congr hextract hmid hstop (Nat.le_refl _))

theorem number (width : Nat) : IsLocal (Decoder.number width) where
  le h := by simp [advance_of_run_number h]
  same := by
    intro bytes other c c' v h hsize hextract
    obtain rfl := advance_of_run_number h
    rw [run_number] at h
    split at h
    · cases h
      rw [Cursor.position_advance] at hsize hextract
      rw [run_number, if_pos hsize, hextract]
    · cases h

end IsLocal
end Decoder

namespace Layout
variable (l : Layout) {data : ByteArray} {c c' : Cursor}

theorem isLocal_readCell (col : Column) : (l.readCell col).IsLocal := by
  cases col with
  | coded k =>
    refine (Decoder.IsLocal.number _).bind fun value => ?_
    cases k.decode? value with
    | some i => exact .pure i
    | none => exact .fail _
  | fixed n => exact .number n
  | string => exact .number _
  | guid => exact .number _
  | blob => exact .number _
  | row t => exact .number _

theorem isLocal_readCells (cols : List Column) : (l.readCells cols).IsLocal := by
  induction cols with
  | nil => exact .pure ()
  | cons col cols ih => exact (l.isLocal_readCell col).bind fun _ => ih.bind fun _ => .pure _

variable (α : Type) [Record α]

theorem isLocal_row (rid : Nat) : (l.row α rid).IsLocal :=
  Decoder.IsLocal.cursor.bind fun _ => (l.isLocal_readCells _).bind fun _ => .pure _

variable {α}

/-- A row that is read knows where it was read. -/
theorem offset_of_row {rid : Nat} {row : Row α}
    (h : (l.row α rid).run data c = (.ok row, c')) : row.offset = c.position := by
  obtain ⟨vs, -, rfl⟩ := l.exists_readCells_of_row h
  rfl

end Layout

/-- The values of a function up to the first that is missing are those of the first few numbers. -/
theorem exists_takeWhile_isSome {β : Type} (f : Nat → Option β) (first count : Nat) :
    ∃ n ≤ count, ((List.range' first count).map f).takeWhile Option.isSome =
        (List.range' first n).map f ∧
      (∀ i ∈ List.range' first n, (f i).isSome) ∧ (n < count → f (first + n) = none) := by
  induction count generalizing first with
  | zero => exact ⟨0, Nat.le_refl 0, rfl, by simp, fun h => absurd h (Nat.lt_irrefl 0)⟩
  | succ count ih =>
    rw [List.range'_succ, List.map_cons]
    cases hf : f first with
    | none => exact ⟨0, Nat.zero_le _, rfl, by simp, fun _ => hf⟩
    | some b =>
      obtain ⟨n, hn, htake, hsome, hstop⟩ := ih (first + 1)
      refine ⟨n + 1, Nat.succ_le_succ hn, ?_, ?_, ?_⟩
      · rw [List.takeWhile_cons_of_pos rfl, htake, List.range'_succ, List.map_cons, hf]
      · rw [List.range'_succ]
        exact List.forall_mem_cons.mpr ⟨by rw [hf]; rfl, hsome⟩
      · intro hlt
        rw [← hstop (Nat.lt_of_succ_lt_succ hlt)]
        congr 1
        omega

/-- If no value is missing, then nothing is left out. -/
theorem map_some_filterMap_id {β : Type} {values : List (Option β)}
    (h : ∀ v ∈ values, v.isSome = true) : (values.filterMap id).map some = values := by
  rw [List.map_filterMap]
  refine (List.filterMap_congr fun v hv => ?_).trans List.filterMap_some
  obtain ⟨b, rfl⟩ := Option.isSome_iff_exists.mp (h v hv)
  rfl

namespace Table
variable {α : Type} [Record α] (t : Table α)

/-- The rows in turn are those of the first numbers, up to one that cannot be read. -/
theorem exists_map_toList :
    ∃ n ≤ t.rowCount, t.toList.map some = (List.range' 1 n).map t.get ∧
      (n < t.rowCount → t.get (n + 1) = none) := by
  obtain ⟨n, hn, htake, hsome, hstop⟩ := exists_takeWhile_isSome t.get 1 t.rowCount
  refine ⟨n, hn, ?_, fun hlt => Nat.add_comm 1 n ▸ hstop hlt⟩
  rw [toList_eq, htake, map_some_filterMap_id (List.forall_mem_map.mpr hsome)]

/-- A row lies where its number puts it. -/
theorem offset_of_get {rid : Nat} {row : Row α} (h : t.get rid = some row) :
    row.offset = (rid - 1) * t.rowSize := by
  obtain ⟨-, last, hrun⟩ := t.run_of_get h
  exact t.layout.offset_of_row hrun

/-- **Rows by number and rows in turn.** A row that is read ends right behind the bytes that its
columns take by the schema, wherever it is read, and says what these bytes say, whatever else the
data are. The rows of a table that are read in turn are the rows of the numbers from one on, up to
the first that cannot be read or to the last, and each has its number and lies where the number
puts it. -/
theorem rows_by_number_and_in_turn {bytes : ByteArray} {rowCount : Nat} {l : Layout} {t : Table α}
    (h : ofBytes bytes rowCount l = .ok t) :
    (∀ (data : ByteArray) (rid : Nat) (c c' : Cursor) (row : Row α),
      (l.row α rid).run data c = (.ok row, c') →
        c' = c.advance (l.rowSize (Record.table α)) ∧ row.rid = rid ∧ row.offset = c.position ∧
        ∀ other : ByteArray, c'.position ≤ other.size →
          other.extract c.position c'.position = data.extract c.position c'.position →
          (l.row α rid).run other c = (.ok row, c')) ∧
    (∃ n ≤ rowCount, t.toList.map some = (List.range' 1 n).map t.get ∧
      (n < rowCount → t.get (n + 1) = none)) ∧
    ∀ row ∈ t.toList, t.get row.rid = some row ∧
      row.offset = (row.rid - 1) * l.rowSize (Record.table α) := by
  obtain ⟨hlayout, hcount⟩ : t.layout = l ∧ t.rowCount = rowCount := by
    rw [ofBytes] at h
    split at h <;> cases h
    exact ⟨rfl, rfl⟩
  refine ⟨?_, hcount ▸ t.exists_map_toList, ?_⟩
  · intro data rid c c' row hrow
    obtain ⟨hadvance, hrid⟩ := l.advance_of_row hrow
    exact ⟨hadvance, hrid, l.offset_of_row hrow,
      fun other hsize hsame => (l.isLocal_row α rid).same hrow hsize hsame⟩
  · intro row hmem
    obtain ⟨n, -, hrows, -⟩ := t.exists_map_toList
    have hsome : some row ∈ (List.range' 1 n).map t.get := hrows ▸ List.mem_map_of_mem hmem
    obtain ⟨rid, -, hget⟩ := List.mem_map.mp hsome
    obtain ⟨rfl, -⟩ := t.rid_of_get hget
    exact ⟨hget, hlayout ▸ t.offset_of_get hget⟩

end Table

namespace Sample

/-- The layout of a module that has three types and nothing else. -/
def typesLayout : Layout :=
  ⟨TableId.all.map fun t => if t = .typeDef then some 3 else none, false, false, false, 28⟩

/-- Three rows of types, the second of which names a base type in a table that there is not. -/
def tornRows : ByteArray :=
  ⟨#[0, 0, 0, 0, 3, 0, 1, 0, 0, 0, 1, 0, 1, 0,
    0, 0, 0, 0, 7, 0, 1, 0, 3, 0, 1, 0, 1, 0,
    0, 0, 0, 0, 5, 0, 1, 0, 0, 0, 1, 0, 1, 0]⟩

/-- The table of these rows. -/
def tornTypes : Table TypeDefinition := ⟨tornRows, 3, typesLayout, by decide +kernel⟩

end Sample

theorem Table.rows_by_number_and_in_turn_sample :
    Table.ofBytes Sample.tornRows 3 Sample.typesLayout = .ok Sample.tornTypes ∧
      Sample.tornTypes.toList.map some = [Sample.tornTypes.get 1] ∧
      (∀ row ∈ Sample.tornTypes.toList, row.offset = (row.rid - 1) * 14) ∧
      Sample.tornTypes.get 2 = none ∧
      Sample.tornTypes.get 3 = some ⟨3, 28, 0, 5, 1, ⟨.typeDef, 0⟩, 1, 1⟩ := by
  have htable : Table.ofBytes Sample.tornRows 3 Sample.typesLayout = .ok Sample.tornTypes :=
    dif_pos Sample.tornTypes.fits
  have hrows : (Sample.tornTypes.get 1).isSome ∧ Sample.tornTypes.get 2 = none ∧
      Sample.tornTypes.get 3 = some ⟨3, 28, 0, 5, 1, ⟨.typeDef, 0⟩, 1, 1⟩ ∧
      Sample.typesLayout.rowSize .typeDef = 14 := by
    decide +kernel
  obtain ⟨hfirst, hsecond, hthird, hsize⟩ := hrows
  obtain ⟨-, ⟨n, hn, hturn, hstop⟩, hplaces⟩ := Table.rows_by_number_and_in_turn htable
  -- The second row cannot be among the rows in turn, and the first is not the one they end at.
  have hone : n = 1 := by
    rcases n with _ | _ | n
    · rw [hstop (by omega)] at hfirst
      cases hfirst
    · rfl
    · have hnone : none ∈ Sample.tornTypes.toList.map some := by
        rw [hturn, ← hsecond]
        exact List.mem_map_of_mem (List.mem_range'_1.mpr ⟨by omega, by omega⟩)
      simp at hnone
  subst hone
  exact ⟨htable, hturn, fun row hrow => hsize ▸ (hplaces row hrow).2, hsecond, hthird⟩

end MethodAtlas
