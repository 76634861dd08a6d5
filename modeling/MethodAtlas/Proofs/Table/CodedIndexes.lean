import MethodAtlas.Proofs.Bytes.Reads
import MethodAtlas.Proofs.Table.Rows

/-!
# Coded indexes in a table

How wide a coded index is depends on the rows of all tables that it can refer to. It is always just
wide enough for the rows that there are, so that each of them is read back from where it is stored:
`Layout.stores_coded_indexes`. This holds up to the last row whose index two bytes can hold, and for
the first one that they cannot.
-/
namespace MethodAtlas

namespace CodedKind
variable {k : CodedKind} {t : TableId} {tag row : Nat}

/-- The tables that an index can refer to are those that a tag selects. -/
theorem mem_targets_iff : t ∈ k.targets ↔ ∃ tag, k.table? tag = some t := by
  constructor
  · intro h
    obtain ⟨tag, htag⟩ := exists_tag? h
    exact ⟨tag, table?_of_tag? htag⟩
  · rintro ⟨tag, h⟩
    rw [table?] at h
    split at h
    · cases h
    · exact List.mem_of_getElem? h

/-- Tags take the low bits, which the row leaves free. -/
theorem decode?_shiftLeft_or (h : k.table? tag = some t) (row : Nat) :
    k.decode? (row <<< k.tagBits ||| tag) = some ⟨t, row⟩ := by
  have hlt := lt_of_table? h
  rw [Nat.one_shiftLeft] at hlt
  rw [← Nat.shiftLeft_add_eq_or_of_lt hlt]
  exact decode?_shiftLeft_add h row

/-- A row that the tag leaves enough bits for is stored in so many bits. -/
theorem shiftLeft_or_lt {bits : Nat} (h : k.table? tag = some t) (hbits : k.tagBits ≤ bits)
    (hrow : row < 1 <<< (bits - k.tagBits)) : row <<< k.tagBits ||| tag < 1 <<< bits := by
  have htag := lt_of_table? h
  rw [Nat.one_shiftLeft] at *
  refine Nat.or_lt_two_pow ?_ (htag.trans_le (Nat.pow_le_pow_right Nat.two_pos hbits))
  rw [Nat.shiftLeft_eq, ← Nat.sub_add_cancel hbits, Nat.pow_add]
  exact Nat.mul_lt_mul_of_pos_right hrow (Nat.two_pow_pos _)

end CodedKind

namespace Layout
variable (l : Layout) (k : CodedKind)

/-- How indexes of one kind are stored in tables of these sizes. -/
structure StoresIndexes : Prop where
  /-- The tables that an index can refer to are those that a tag selects. -/
  targets : ∀ t, t ∈ k.targets ↔ ∃ tag, k.table? tag = some t
  /-- An index takes two bytes if the tag leaves enough of their bits for all rows. -/
  two_bytes_iff : l.codedBytes k = 2 ↔ ∀ t ∈ k.targets, l.rows t < 1 <<< (16 - k.tagBits)
  four_bytes : l.codedBytes k ≠ 2 → l.codedBytes k = 4
  /-- Every row that there is, and no row, has an index that fits. Wherever its bytes lie, it is
  read back from them. -/
  stored : ∀ t tag row, k.table? tag = some t → row ≤ l.rows t → row < 1 <<< (32 - k.tagBits) →
    row <<< k.tagBits ||| tag < 1 <<< (8 * l.codedBytes k) ∧
      ∀ bytes c after,
        c.Ahead bytes (Bytes.toLE (l.codedBytes k) (row <<< k.tagBits ||| tag) ++ after) →
        (l.coded k).run bytes c = (.ok ⟨t, row⟩, c.advance (l.codedBytes k))
  /-- Different rows have different indexes. -/
  distinct : ∀ t tag row t' tag' row', k.table? tag = some t → k.table? tag' = some t' →
    (t, row) ≠ (t', row') → row <<< k.tagBits ||| tag ≠ row' <<< k.tagBits ||| tag'
  /-- What has a tag that selects no table is no index. -/
  unused : ∀ value, value < 1 <<< (8 * l.codedBytes k) → k.table? (k.tagOf value) = none →
    ∀ bytes c after, c.Ahead bytes (Bytes.toLE (l.codedBytes k) value ++ after) →
      (l.coded k).run bytes c =
        (.error (.malformed (.codedTag (k.tagOf value) k)), c.advance (l.codedBytes k))

variable {l k}

theorem codedBytes_eq_two_iff :
    l.codedBytes k = 2 ↔ ∀ t ∈ k.targets, l.rows t < 1 <<< (16 - k.tagBits) := by
  rw [l.codedBytes_eq]
  by_cases hwide : ∃ t ∈ k.targets, 1 <<< (16 - k.tagBits) ≤ l.rows t
  · rw [if_pos hwide]
    obtain ⟨t, ht, hrows⟩ := hwide
    exact iff_of_false (by decide) fun hall => absurd (hall t ht) (Nat.not_lt.mpr hrows)
  · rw [if_neg hwide]
    refine iff_of_true rfl fun t ht => ?_
    by_contra hrows
    exact hwide ⟨t, ht, Nat.not_lt.mp hrows⟩

theorem codedBytes_eq_four (h : l.codedBytes k ≠ 2) : l.codedBytes k = 4 := by
  rw [l.codedBytes_eq] at h ⊢
  split
  · rfl
  · next hnarrow =>
    rw [if_neg hnarrow] at h
    exact absurd rfl h

/-- Rows that there are have indexes that fit. -/
theorem index_lt {t : TableId} {tag row : Nat} (htag : k.table? tag = some t)
    (hrow : row ≤ l.rows t) (hlimit : row < 1 <<< (32 - k.tagBits)) :
    row <<< k.tagBits ||| tag < 1 <<< (8 * l.codedBytes k) := by
  have hbits : k.tagBits ≤ 16 := by cases k <;> decide
  by_cases htwo : l.codedBytes k = 2
  · have hrows := codedBytes_eq_two_iff.mp htwo t (CodedKind.mem_targets_iff.mpr ⟨tag, htag⟩)
    rw [htwo]
    exact CodedKind.shiftLeft_or_lt htag hbits (hrow.trans_lt hrows)
  · rw [codedBytes_eq_four htwo]
    exact CodedKind.shiftLeft_or_lt htag (hbits.trans (by decide)) hlimit

/-- A number that fits an index is read back from its bytes. -/
theorem run_number_of_ahead {value : Nat} (hvalue : value < 1 <<< (8 * l.codedBytes k))
    {bytes : ByteArray} {c : Cursor} {after : List UInt8}
    (hahead : c.Ahead bytes (Bytes.toLE (l.codedBytes k) value ++ after)) :
    (Decoder.number (l.codedBytes k)).run bytes c =
      (.ok value, c.advance (l.codedBytes k)) := by
  have hnumber := Decoder.Reads.toLE hvalue trivial hahead
  rwa [Bytes.length_toLE] at hnumber

/-- A coded index is as wide as the rows of its tables need, rows are read back from their indexes,
and there are no other indexes. -/
theorem stores_coded_indexes (l : Layout) (k : CodedKind) : l.StoresIndexes k where
  targets _ := CodedKind.mem_targets_iff
  two_bytes_iff := codedBytes_eq_two_iff
  four_bytes := codedBytes_eq_four
  stored := by
    intro t tag row htag hrow hlimit
    have hfits := index_lt htag hrow hlimit
    refine ⟨hfits, fun bytes c after hahead => ?_⟩
    rw [l.run_coded (run_number_of_ahead hfits hahead), CodedKind.decode?_shiftLeft_or htag,
      Option.elim_some]
  distinct := by
    intro t tag row t' tag' row' htag htag' hne hsame
    have hdecode := CodedKind.decode?_shiftLeft_or htag row
    rw [hsame, CodedKind.decode?_shiftLeft_or htag' row'] at hdecode
    cases hdecode
    exact hne rfl
  unused := by
    intro value hvalue hunused bytes c after hahead
    rw [l.run_coded (run_number_of_ahead hvalue hahead), CodedKind.decode?, hunused,
      Option.map_none, Option.elim_none]

/-- The last number of rows for which two bytes hold all indexes of attributed rows, and the first
for which they do not. -/
example :
    (⟨[none, some 2047], false, false, false, 24⟩ : Layout).codedBytes .hasCustomAttribute = 2 ∧
    (⟨[none, some 2048], false, false, false, 24⟩ : Layout).codedBytes .hasCustomAttribute = 4 := by
  decide

end Layout
end MethodAtlas
