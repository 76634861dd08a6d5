import MethodAtlas.Proofs.Module.Declared
import MethodAtlas.Proofs.Module.Members

/-!
# Methods of two types

Where a run of methods ends is said by the row of the next type, and a row that cannot be read says
nothing, although the number still stands in its last column: then the run goes on to the end of
the list. So if the numbers in the column never decrease, two types have no method in common exactly
if the row behind the first of them can be read, or one of them has no methods at all:
`Module.methods_disjoint_iff`.
-/
namespace MethodAtlas

namespace Cells

/-- The values behind those of some columns. -/
def behind {cols : List Column} : (before : List Column) → Cells (before ++ cols) → Cells cols
  | [], vs => vs
  | _ :: before, (_, vs) => behind before vs

end Cells

namespace Layout
variable (l : Layout) {bytes : ByteArray} {c c' : Cursor}

/-- Cells behind others are read where those end. -/
theorem run_readCells_behind (before cols : List Column) {vs : Cells (before ++ cols)}
    (h : (l.readCells (before ++ cols)).run bytes c = (.ok vs, c')) :
    (l.readCells cols).run bytes (c.advance (Cells.size l.width before)) =
      (.ok (vs.behind before), c') := by
  induction before generalizing c with
  | nil => exact h
  | cons col before ih =>
    obtain ⟨v, mid, hcell, hrest⟩ := Decoder.run_bind_eq_ok h
    obtain ⟨vs', last, hcells, hlast⟩ := Decoder.run_bind_eq_ok hrest
    cases hlast
    rw [Cells.size, ← Cursor.advance_advance, ← l.advance_of_readCell hcell]
    exact ih hcells

end Layout

namespace Table
variable (t : Table TypeDefinition)

/-- The columns of a type in front of the one that says where its methods start. -/
def columnsBeforeMethods : List Column :=
  [.fixed 4, .string, .string, .coded .typeDefOrRef, .row .field]

/-- The number that stands in the last column of a type, whatever stands in the other columns. -/
def storedMethodList (rid : Nat) : Option Nat :=
  ((Decoder.number (t.layout.readRowBytes .methodDef)).decodeAt t.bytes
    ((rid - 1) * t.rowSize + Cells.size t.layout.width columnsBeforeMethods)).toOption

/-- A row that can be read says what stands in its last column. -/
theorem storedMethodList_of_get {rid : Nat} {row : Row TypeDefinition} (h : t.get rid = some row) :
    t.storedMethodList rid = some row.record.methodList := by
  obtain ⟨-, last, hrun⟩ := t.run_of_get h
  obtain ⟨⟨flags, name, ns, base, fields, methods, ⟨⟩⟩, hcells, rfl⟩ :=
    t.layout.exists_readCells_of_row hrun
  have hlast := t.layout.run_readCells_behind columnsBeforeMethods [.row .methodDef] hcells
  obtain ⟨v, mid, hcell, hrest⟩ := Decoder.run_bind_eq_ok hlast
  cases hrest
  have hnumber : (Decoder.number (t.layout.readRowBytes .methodDef)).decodeAt t.bytes
      ((rid - 1) * t.rowSize + Cells.size t.layout.width columnsBeforeMethods) = .ok _ :=
    congrArg Prod.fst hcell
  rw [storedMethodList, hnumber]
  rfl

end Table

namespace Module
variable (m : Module)

/-- The numbers in the last column of all types, of those as well whose rows cannot be read. -/
def storedMethodLists : List Nat :=
  match m.table TypeDefinition with
  | none => []
  | some types => (List.range' 1 types.rowCount).filterMap types.storedMethodList

variable {m} {t u : Row TypeDefinition}

/-- Types that can be read own runs that start in their order, if the numbers in the last column
never decrease. -/
theorem methodList_le (h : m.storedMethodLists.Pairwise (· ≤ ·))
    (ht : m.row TypeDefinition t.rid = some t) (hu : m.row TypeDefinition u.rid = some u)
    (hlt : t.rid < u.rid) : t.record.methodList ≤ u.record.methodList := by
  cases htypes : m.tables.table TypeDefinition with
  | none => simp [Module.row, TableStream.row, htypes] at ht
  | some types =>
    rw [Module.row, m.tables.row_eq_get htypes] at ht hu
    rw [storedMethodLists, show m.table TypeDefinition = some types from htypes,
      List.pairwise_filterMap, List.pairwise_iff_getElem] at h
    have hrange := types.rid_of_get hu
    have hrange' := types.rid_of_get ht
    have hpair := h (t.rid - 1) (u.rid - 1) (by simp; omega) (by simp; omega) (by omega)
    simp only [List.getElem_range', Nat.one_mul] at hpair
    rw [Nat.add_sub_cancel' (by omega), Nat.add_sub_cancel' (by omega)] at hpair
    exact hpair _ (types.storedMethodList_of_get ht) _ (types.storedMethodList_of_get hu)

/-- The methods of a type are those from the first that it names up to the first of the next type,
if the row of that can be read, or else all to the last. -/
theorem mem_methods_iff (hpointers : m.table MethodPointer = none) {d : Row MethodDefinition} :
    d ∈ m.methods t ↔ m.row MethodDefinition d.rid = some d ∧ t.record.methodList ≠ 0 ∧
      t.record.methodList ≤ d.rid ∧
      ∀ next, m.row TypeDefinition (t.rid + 1) = some next → d.rid < next.record.methodList := by
  cases hmethods : m.tables.table MethodDefinition with
  | none =>
    rw [methods, show m.table MethodDefinition = none from hmethods]
    simp [Module.row, TableStream.row, hmethods]
  | some table =>
    rw [methods, show m.table MethodDefinition = some table from hmethods, hpointers,
      List.mem_filterMap]
    simp only [Module.row, m.tables.row_eq_get hmethods]
    constructor
    · rintro ⟨place, hplace, hget⟩
      obtain ⟨rfl, -⟩ := table.rid_of_get hget
      rw [places] at hplace
      split at hplace
      · cases hplace
      · next hstart =>
        have hrange := List.mem_range'_1.mp hplace
        refine ⟨hget, hstart, hrange.1, fun next hnext => ?_⟩
        simp only [hnext, Option.map_some, Option.getD_some] at hrange
        omega
    · rintro ⟨hget, hstart, hle, hlt⟩
      obtain ⟨-, -, hcount⟩ := table.rid_of_get hget
      refine ⟨d.rid, ?_, hget⟩
      rw [places, if_neg hstart, List.mem_range'_1]
      refine ⟨hle, ?_⟩
      cases hnext : m.tables.row TypeDefinition (t.rid + 1) with
      | none =>
        simp only [Option.map_none, Option.getD_none]
        omega
      | some next =>
        have := hlt next hnext
        simp only [Option.map_some, Option.getD_some]
        omega

/-- A type and a later one have no method in common exactly if the row behind the earlier one can be
read, or one of them has no methods. -/
theorem disjoint_methods_iff_of_lt (hpointers : m.table MethodPointer = none)
    (h : m.storedMethodLists.Pairwise (· ≤ ·)) (ht : m.row TypeDefinition t.rid = some t)
    (hu : m.row TypeDefinition u.rid = some u) (hlt : t.rid < u.rid) :
    (m.methods t).Disjoint (m.methods u) ↔
      (m.row TypeDefinition (t.rid + 1)).isSome ∨ m.methods t = [] ∨ m.methods u = [] := by
  constructor
  · intro hdisjoint
    by_contra hshared
    simp only [not_or, Option.not_isSome_iff_eq_none] at hshared
    obtain ⟨hnext, hmethods, hmethods'⟩ := hshared
    obtain ⟨d, hd⟩ := List.exists_mem_of_ne_nil _ hmethods
    obtain ⟨e, he⟩ := List.exists_mem_of_ne_nil _ hmethods'
    obtain ⟨-, hstart, -, -⟩ := (mem_methods_iff hpointers).mp hd
    obtain ⟨hrow, -, hle, -⟩ := (mem_methods_iff hpointers).mp he
    -- The run of the earlier type goes on to the end, and so holds what the later one has.
    have hboth : e ∈ m.methods t :=
      (mem_methods_iff hpointers).mpr
        ⟨hrow, hstart, (methodList_le h ht hu hlt).trans hle, by simp [hnext]⟩
    exact hdisjoint hboth he
  · rintro (hnext | hnone | hnone)
    · intro d hd hd'
      obtain ⟨next, hnext⟩ := Option.isSome_iff_exists.mp hnext
      obtain ⟨-, -, -, hstop⟩ := (mem_methods_iff hpointers).mp hd
      obtain ⟨-, -, hle, -⟩ := (mem_methods_iff hpointers).mp hd'
      obtain ⟨hrid, -⟩ := m.tables.rid_of_row hnext
      have hstarts : next.record.methodList ≤ u.record.methodList := by
        rcases Nat.lt_or_ge next.rid u.rid with hbefore | hbehind
        · exact methodList_le h (hrid.symm ▸ hnext) hu hbefore
        · have hsame : t.rid + 1 = u.rid := by omega
          rw [hsame, hu] at hnext
          exact Nat.le_of_eq (congrArg (·.record.methodList) (Option.some.inj hnext).symm)
      have := hstop next hnext
      omega
    · simp [hnone]
    · simp [hnone]

/-- **Methods of two types.** In a module that lists its methods in their own order, and whose types
name the first of their methods in increasing order, those types as well that cannot be read, two
types that can be read have no method in common exactly if the row behind the earlier one can be
read, or one of them has no methods. In the first case a search for public methods of one of them
comes to its own methods only. -/
theorem methods_disjoint_iff (hpointers : m.table MethodPointer = none)
    (h : m.storedMethodLists.Pairwise (· ≤ ·)) (ht : m.row TypeDefinition t.rid = some t)
    (hu : m.row TypeDefinition u.rid = some u) (hne : t.rid ≠ u.rid) :
    ((m.methods t).Disjoint (m.methods u) ↔
      (m.row TypeDefinition (min t.rid u.rid + 1)).isSome ∨ m.methods t = [] ∨
        m.methods u = []) ∧
    ((m.row TypeDefinition (min t.rid u.rid + 1)).isSome → ∀ name seen,
      m.publicMethodsNamed t name = .ok seen →
        ∀ d ∈ seen, d ∈ m.methods t ∧ d ∉ m.methods u) := by
  have hiff : (m.methods t).Disjoint (m.methods u) ↔
      (m.row TypeDefinition (min t.rid u.rid + 1)).isSome ∨ m.methods t = [] ∨
        m.methods u = [] := by
    rcases Nat.lt_or_gt_of_ne hne with hlt | hgt
    · rw [Nat.min_eq_left hlt.le]
      exact disjoint_methods_iff_of_lt hpointers h ht hu hlt
    · rw [Nat.min_eq_right (Nat.le_of_lt hgt), List.disjoint_comm, or_comm (a := m.methods t = [])]
      exact disjoint_methods_iff_of_lt hpointers h hu ht hgt
  refine ⟨hiff, fun hnext name seen hseen d hd => ?_⟩
  obtain ⟨-, rfl⟩ := publicMethodsNamed_eq_ok hseen
  obtain ⟨hmem, -⟩ := List.mem_filter.mp hd
  exact ⟨hmem, hiff.mpr (.inl hnext) hmem⟩

end Module

namespace Sample

/-- The row of `N.T`, which starts at the only method. -/
def firstType : Row TypeDefinition := ⟨1, 0, 0, 3, 1, ⟨.typeDef, 0⟩, 1, 1⟩

end Sample

theorem Module.methods_disjoint_iff_sample :
    Sample.module.storedMethodLists = [1, 2, 2] ∧
      Sample.module.row TypeDefinition 1 = some Sample.firstType ∧
      Sample.module.row TypeDefinition 2 = some Sample.secondType ∧
      (Sample.module.methods Sample.firstType).map (·.rid) = [1] ∧
      (Sample.module.methods Sample.firstType).Disjoint
        (Sample.module.methods Sample.secondType) := by
  obtain ⟨hlists, hpointers, ht, hu, hmethods⟩ :
      Sample.module.storedMethodLists = [1, 2, 2] ∧
        (Sample.module.table MethodPointer).isNone ∧
        Sample.module.row TypeDefinition 1 = some Sample.firstType ∧
        Sample.module.row TypeDefinition 2 = some Sample.secondType ∧
        (Sample.module.methods Sample.firstType).map (·.rid) = [1] := by
    decide +kernel
  obtain ⟨hiff, -⟩ := methods_disjoint_iff (t := Sample.firstType) (u := Sample.secondType)
    (Option.isNone_iff_eq_none.mp hpointers) (by rw [hlists]; decide) ht hu (by decide)
  have hnext : (Sample.module.row TypeDefinition (min 1 2 + 1)).isSome := by
    rw [show min 1 2 + 1 = 2 from rfl, hu]
    rfl
  exact ⟨hlists, ht, hu, hmethods, hiff.mpr (.inl hnext)⟩

/-- The types on both sides of a row that cannot be read have one method. -/
theorem Module.methods_shared_around_damage :
    ofBytes ImageHeaders.read? (Sample.bytesWith Sample.damagedTables Sample.strings) =
        .ok Sample.damaged ∧
      Sample.damaged.table MethodPointer = none ∧
      Sample.damaged.storedMethodLists = [1, 1, 1] ∧
      Sample.damaged.row TypeDefinition 1 = some Sample.firstType ∧
      Sample.damaged.row TypeDefinition 3 = some Sample.lastType ∧
      ¬ (Sample.damaged.methods Sample.firstType).Disjoint
        (Sample.damaged.methods Sample.lastType) := by
  obtain ⟨hpointers, hlists, ht, hu, hsame, hmethods⟩ :
      (Sample.damaged.table MethodPointer).isNone ∧
        Sample.damaged.storedMethodLists = [1, 1, 1] ∧
        Sample.damaged.row TypeDefinition 1 = some Sample.firstType ∧
        Sample.damaged.row TypeDefinition 3 = some Sample.lastType ∧
        Sample.damaged.methods Sample.firstType = Sample.damaged.methods Sample.lastType ∧
        Sample.damaged.methods Sample.lastType ≠ [] := by
    decide +kernel
  obtain ⟨d, hd⟩ := List.exists_mem_of_ne_nil _ hmethods
  exact ⟨Sample.ofBytes_damaged, Option.isNone_iff_eq_none.mp hpointers, hlists, ht, hu,
    fun hdisjoint => hdisjoint (hsame ▸ hd) hd⟩

end MethodAtlas
