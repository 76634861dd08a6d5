import MethodAtlas.Table.Stored

/-!
# How wide columns are

Three computations have to agree for rows to be found: the one that measures a column by the bits
of row numbers (`Layout.width`), the one that a row is read by, and the rule of the standard
(`StoredTables.width`). Row numbers take more than some bits exactly if there are as many rows as
those bits can count (`Layout.lt_bits_iff`), which is what all three come down to.
-/
namespace MethodAtlas

namespace Layout
variable (l : Layout)

theorem lt_bits_iff (t : TableId) {n : Nat} (hn : 0 < n) : n < l.bits t ↔ 1 <<< n ≤ l.rows t := by
  rw [bits, rows]
  cases l.rows? t with
  | none => simp [Nat.one_shiftLeft]
  | some rows =>
    simp only [Option.elim_some, Option.getD_some, rowBits, Nat.one_shiftLeft]
    split
    · next hrows =>
      have hpos := Nat.two_pow_pos n
      omega
    · next hrows => rw [Nat.lt_succ_iff, Nat.le_log2 hrows]

/-- The bytes that are read for a row number are those that it is measured by. -/
theorem readRowBytes_eq (t : TableId) : l.readRowBytes t = l.rowBytes t := by
  have hbits := l.lt_bits_iff t (n := 16) (by decide)
  have hlarge : isLarge (l.rows t) = true ↔ 16 < l.bits t := by
    rw [hbits]
    simp only [isLarge, decide_eq_true_eq, Nat.one_shiftLeft]
    omega
  simp only [readRowBytes, rowBytes, indexBytes, hlarge]

theorem lt_foldl_max {α : Type} {f : α → Nat} {n m : Nat} {xs : List α} :
    n < (xs.map f).foldl max m ↔ n < m ∨ ∃ x ∈ xs, n < f x := by
  induction xs generalizing m with
  | nil => simp
  | cons x xs ih =>
    have hmax : n < max m (f x) ↔ n < m ∨ n < f x := by omega
    rw [List.map_cons, List.foldl_cons, ih, hmax, or_assoc]
    simp only [List.mem_cons, exists_eq_or_imp]

/-- A coded index is wide if one of its tables has more rows than the tag leaves bits for. -/
theorem codedBytes_eq (k : CodedKind) : l.codedBytes k =
    if ∃ t ∈ k.targets, 1 <<< (16 - k.tagBits) ≤ l.rows t then 4 else 2 := by
  have htag : k.tagBits < 16 := by cases k <;> decide
  have hwide : 16 < l.codedBits k ↔ ∃ t ∈ k.targets, 1 <<< (16 - k.tagBits) ≤ l.rows t := by
    calc 16 < l.codedBits k
      _ ↔ 16 - k.tagBits < (k.targets.map l.bits).foldl max 0 := by rw [codedBits]; omega
      _ ↔ ∃ t ∈ k.targets, 16 - k.tagBits < l.bits t := by
        rw [lt_foldl_max, or_iff_right (Nat.not_lt_zero _)]
      _ ↔ ∃ t ∈ k.targets, 1 <<< (16 - k.tagBits) ≤ l.rows t := by
        simp only [l.lt_bits_iff _ (Nat.sub_pos_of_lt htag)]
  simp only [codedBytes, indexBytes, hwide]

end Layout

namespace StoredTables
variable (s : StoredTables)

theorem rows_layout (t : TableId) : s.layout.rows t = s.rows t := by
  have hcount : s.layout.rowCounts[t.number]? = some ((s.rowCount t).map (·.toNat)) := by
    have hall : TableId.all[t.number]? = some t := TableId.ofNumber?_number t
    rw [layout, List.getElem?_map, hall, Option.map_some]
  rw [Layout.rows, Layout.rows?, hcount, StoredTables.rows]
  cases s.rowCount t <;> rfl

/-- Columns are measured as the standard says. -/
theorem width_layout : s.layout.width = s.width := by
  funext c
  cases c with
  | row t =>
    have hlarge : isLarge (s.rows t) = true ↔ 0xFFFF < s.rows t := by simp [isLarge]
    rw [Layout.width, ← Layout.readRowBytes_eq, Layout.readRowBytes, s.rows_layout]
    simp only [hlarge, width]
  | coded k =>
    rw [Layout.width, Layout.codedBytes_eq, width]
    simp only [s.rows_layout]
  | _ => rfl

theorem rowSize_layout (t : TableId) : s.layout.rowSize t = s.rowSize t := by
  rw [Layout.rowSize, s.width_layout, rowSize]

end StoredTables
end MethodAtlas
