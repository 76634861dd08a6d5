import MethodAtlas.Proofs.Module.Gathered
import MethodAtlas.Proofs.Table.RowBytes

/-!
# Types that can be found by name

The namespaces of a module list the types that the rows in turn come to, and those end at the first
row that cannot be read. So a type that is not nested is listed in its namespace, once, exactly if
all rows before its own can be read: `Module.listed_iff_before_readable`. One damaged byte at the
start of the table hides every type behind it, although each can still be read by its number.
-/
namespace MethodAtlas

namespace TableStream
variable (s : TableStream) {α : Type} [Record α]

/-- The rows in turn have the numbers from one on, up to one with which all rows can be read. -/
theorem exists_rids_rowList :
    ∃ n ≤ s.rows (Record.table α), (s.rowList α).map (·.rid) = List.range' 1 n ∧
      ∀ rid, 1 ≤ rid → rid ≤ n → (s.row α rid).isSome := by
  obtain ⟨n, hn, htake, hread, -⟩ :=
    exists_takeWhile_isSome (s.row α) 1 (s.rows (Record.table α))
  refine ⟨n, hn, ?_, fun rid h1 h2 => hread rid (List.mem_range'_1.mpr ⟨h1, by omega⟩)⟩
  have hrid : ∀ rid ∈ List.range' 1 n, (s.row α rid).map (·.rid) = some rid := by
    intro rid hmem
    obtain ⟨row, hrow⟩ := Option.isSome_iff_exists.mp (hread rid hmem)
    rw [hrow, Option.map_some, (s.rid_of_row hrow).1]
  rw [rowList_eq, htake, List.filterMap_map, List.map_filterMap]
  exact (List.filterMap_congr hrid).trans List.filterMap_some

theorem nodup_rids_rowList : ((s.rowList α).map (·.rid)).Nodup := by
  obtain ⟨n, -, hrids, -⟩ := s.exists_rids_rowList (α := α)
  exact hrids ▸ List.nodup_range'

/-- The rows in turn come to a row exactly if they come to all rows before it. -/
theorem mem_rids_rowList_iff {row : Row α} (h : s.row α row.rid = some row) :
    row.rid ∈ (s.rowList α).map (·.rid) ↔
      ∀ rid, 1 ≤ rid → rid < row.rid → (s.row α rid).isSome := by
  constructor
  · intro hmem rid h1 h2
    obtain ⟨n, -, hrids, hread⟩ := s.exists_rids_rowList (α := α)
    rw [hrids, List.mem_range'_1] at hmem
    exact hread rid h1 (by omega)
  · exact fun hbefore => List.mem_map_of_mem (s.mem_rowList h hbefore)

end TableStream

namespace Module
variable {m : Module}

/-- A module is read only if the namespace of each outermost type that it comes to is a text. -/
theorem exists_namespace_of_declareTypes {strings : StringHeap} {nesting : Nesting}
    {rows : List (Row TypeDefinition)} {tree result : NamespaceTree}
    (h : declareTypes strings nesting rows tree = .ok result) {row : Row TypeDefinition}
    (hmem : row ∈ rows) (houter : nesting.enclosing? row.rid = none) :
    ∃ ns, strings.get row.record.namespaceName = .ok ns := by
  induction rows generalizing tree with
  | nil => cases hmem
  | cons first rows ih =>
    rw [declareTypes] at h
    split at h
    · next hnested =>
      rcases List.mem_cons.mp hmem with rfl | hmem
      · rw [houter] at hnested
        cases hnested
      · exact ih h hmem
    · split at h
      · cases h
      · next ns hns =>
        rcases List.mem_cons.mp hmem with rfl | hmem
        · exact ⟨ns, hns⟩
        · exact ih h hmem

/-- The outermost types that a namespace lists are rows in turn. -/
theorem Gathered.mem_rids_of_mem_typesIn (h : m.Gathered) {rid : Nat} {ns : String}
    (hmem : rid ∈ m.namespaces.typesIn ns) :
    rid ∈ (m.tables.rowList TypeDefinition).map (·.rid) := by
  rw [h.typesIn_eq] at hmem
  obtain ⟨row, hrow, rfl⟩ := List.mem_map.mp hmem
  exact List.mem_map_of_mem (List.mem_of_mem_filter hrow)

/-- An outermost type that the rows in turn come to is listed in its namespace once. -/
theorem Gathered.count_typesIn (h : m.Gathered) {row : Row TypeDefinition} {ns : String}
    (hmem : row ∈ m.tables.rowList TypeDefinition) (houter : m.enclosing? row.rid = none)
    (hns : m.string row.record.namespaceName = .ok ns) :
    (m.namespaces.typesIn ns).count row.rid = 1 := by
  have hlisted : row ∈ (m.tables.rowList TypeDefinition).filter fun row =>
      m.isOutermost row.rid && m.string row.record.namespaceName = .ok ns :=
    List.mem_filter.mpr ⟨hmem, by simp [hns, (h.enclosing?_eq_none_iff row.rid).mp houter]⟩
  rw [h.typesIn_eq]
  exact List.count_eq_one_of_mem
    ((List.filter_sublist.map _).nodup m.tables.nodup_rids_rowList) (List.mem_map_of_mem hlisted)

end Module

namespace NamespaceTree

/-- A type is in a dotted namespace if it is listed at the node that the segments lead to. -/
theorem mem_typesIn_iff {t : NamespaceTree} {ns : String} {rid : Nat} :
    rid ∈ t.typesIn ns ↔ ∃ node, t.find? root (namespaceSegments ns) = some node ∧
      rid ∈ t.types node := by
  rw [typesIn]
  cases t.find? root (namespaceSegments ns) <;> simp

end NamespaceTree

/-- **Types by number and by name.** A type of a module that is not nested can be read by its
number. It is also listed at the node that the segments of its own namespace lead to, exactly once,
if all types before it can be read, and only then. -/
theorem Module.listed_iff_before_readable {readHeaders : HeaderReader} {bytes : ByteArray}
    {m : Module} (h : ofBytes readHeaders bytes = .ok m) {row : Row TypeDefinition}
    (hrow : m.row TypeDefinition row.rid = some row) (houter : m.enclosing? row.rid = none) :
    (∃ ns node, m.string row.record.namespaceName = .ok ns ∧
      m.namespaces.find? NamespaceTree.root (namespaceSegments ns) = some node ∧
      (m.namespaces.types node).count row.rid = 1) ↔
    ∀ rid, 1 ≤ rid → rid < row.rid → (m.row TypeDefinition rid).isSome := by
  have hgathered := gathered_of_ofBytes h
  have hturn := m.tables.mem_rids_rowList_iff hrow
  constructor
  · rintro ⟨ns, node, -, hnode, hcount⟩
    have hlisted : row.rid ∈ m.namespaces.types node :=
      List.count_pos_iff.mp (hcount ▸ Nat.one_pos)
    exact hturn.mp
      (hgathered.mem_rids_of_mem_typesIn (NamespaceTree.mem_typesIn_iff.mpr ⟨node, hnode, hlisted⟩))
  · intro hbefore
    have hmem := m.tables.mem_rowList hrow hbefore
    obtain ⟨ns, hns⟩ := exists_namespace_of_declareTypes hgathered.namespaces hmem houter
    have hcount := hgathered.count_typesIn hmem houter hns
    obtain ⟨node, hnode, -⟩ := NamespaceTree.mem_typesIn_iff.mp
      (List.count_pos_iff.mp (hcount ▸ Nat.one_pos : 0 < (m.namespaces.typesIn ns).count row.rid))
    refine ⟨ns, node, hns, hnode, ?_⟩
    rwa [NamespaceTree.typesIn, hnode] at hcount

namespace Sample

/-- The row of `N.Y`, which stands behind that of the first type. -/
def secondType : Row TypeDefinition := ⟨2, 14, 0, 7, 1, ⟨.typeRef, 6⟩, 1, 2⟩

end Sample

theorem Module.listed_iff_before_readable_sample :
    ofBytes ImageHeaders.read? Sample.bytes = .ok Sample.module ∧
      Sample.module.row TypeDefinition 2 = some Sample.secondType ∧
      Sample.module.enclosing? 2 = none ∧
      ∃ ns node, Sample.module.string Sample.secondType.record.namespaceName = .ok ns ∧
        Sample.module.namespaces.find? NamespaceTree.root (namespaceSegments ns) = some node ∧
        (Sample.module.namespaces.types node).count 2 = 1 := by
  obtain ⟨hrow, houter, hcount⟩ :
      Sample.module.row TypeDefinition 2 = some Sample.secondType ∧
        Sample.module.enclosing? 2 = none ∧ Sample.module.rowCount .typeDef = 3 := by
    decide +kernel
  have hbefore : ∀ rid, 1 ≤ rid → rid < 2 → (Sample.module.row TypeDefinition rid).isSome :=
    fun rid h1 h2 => Sample.isSome_row_typeDefinition rid h1 (by omega)
  exact ⟨Sample.ofBytes_eq, hrow, houter,
    (@listed_iff_before_readable _ _ _ Sample.ofBytes_eq Sample.secondType hrow houter).mpr
      hbefore⟩

namespace Sample

/-- The tables of the sample, but with types the second of which has a base type in a table that
there is not, and the third of which is not nested. -/
def damagedTables : TableStream :=
  { tables with
    slices := tables.slices.map fun (t, content) =>
      (t,
        if t = .typeDef then tornRows
        else if t = .nestedClass then stored [(⟨2, 1⟩ : NestedClass)]
        else content) }

/-- What a file with these tables is read to. -/
def damaged : Module :=
  moduleWith damagedTables strings (.ofList [⟨2, 1⟩])
    ⟨#[⟨"", #[1], #[]⟩, ⟨"N", #[], #[1]⟩]⟩

theorem ofBytes_damaged :
    Module.ofBytes ImageHeaders.read? (bytesWith damagedTables strings) = .ok damaged := by
  obtain ⟨-, hnames, -⟩ := sizes_and_ofBytes
  have hlength : (contentOf damagedTables).length = 212 := by decide +kernel
  have hgathered : damaged.Gathered := by
    have hrows : damagedTables.rowList NestedClass = [⟨1, 0, ⟨2, 1⟩⟩] := by decide +kernel
    refine ⟨?_, by decide +kernel⟩
    exact congrArg (fun rows : List (Row NestedClass) => Nesting.ofList (rows.map (·.record)))
      hrows.symm
  exact ofBytes_bytesWith hlength hnames (by decide +kernel) (by decide +kernel)
    (by decide +kernel) hgathered

/-- The row of `N.X`, which stands behind one that cannot be read. -/
def lastType : Row TypeDefinition := ⟨3, 28, 0, 5, 1, ⟨.typeDef, 0⟩, 1, 1⟩

end Sample

/-- A row that cannot be read hides the type behind it from all namespaces, although this type can
be read by its number. -/
theorem Module.unlisted_behind_damage :
    ofBytes ImageHeaders.read? (Sample.bytesWith Sample.damagedTables Sample.strings) =
        .ok Sample.damaged ∧
      Sample.damaged.row TypeDefinition 3 = some Sample.lastType ∧
      Sample.damaged.enclosing? 3 = none ∧
      ¬ ∃ ns node, Sample.damaged.string Sample.lastType.record.namespaceName = .ok ns ∧
        Sample.damaged.namespaces.find? NamespaceTree.root (namespaceSegments ns) = some node ∧
        (Sample.damaged.namespaces.types node).count 3 = 1 := by
  obtain ⟨hrow, houter, hns, hnode, htypes⟩ :
      Sample.damaged.row TypeDefinition 3 = some Sample.lastType ∧
        Sample.damaged.enclosing? 3 = none ∧
        Sample.damaged.string Sample.lastType.record.namespaceName = .ok "N" ∧
        Sample.damaged.namespaces.find? NamespaceTree.root (namespaceSegments "N") = some 1 ∧
        Sample.damaged.namespaces.types 1 = [1] := by
    decide +kernel
  refine ⟨Sample.ofBytes_damaged, hrow, houter, ?_⟩
  rintro ⟨ns, node, hname, hfind, hcount⟩
  obtain rfl : ns = "N" := by simpa [hns] using hname.symm
  obtain rfl : node = 1 := by simpa [hnode] using hfind.symm
  simp [htypes] at hcount

end MethodAtlas
