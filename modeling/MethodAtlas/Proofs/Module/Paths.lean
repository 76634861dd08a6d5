import MethodAtlas.Module.Names
import MethodAtlas.Proofs.Module.Chains
import MethodAtlas.Proofs.Module.FlatLookup

/-!
# The types around a type

A chain of types is followed outwards until it ends, and the walk that builds a full name has steps
enough for every chain that does. `typePath_of_spells` is the way back from the search: the types
that were gone through from the outside are those that a walk from the inside comes by.
-/
namespace MethodAtlas

namespace Module
variable {m : Module}

/-- The namespace that the row of a type states. -/
def statedNamespace (m : Module) (rid : Nat) : Except Fault String := do
  let row ← m.needRow TypeDefinition rid
  m.string row.record.namespaceName

/-- No type is told to be nested by more than one row. -/
def NestedOnce (m : Module) : Prop :=
  ∀ rid, 1 ≤ rid → rid ≤ m.rowCount .typeDef →
    (m.nestedRows.filter (·.nested = rid)).length ≤ 1

theorem range_of_needRow {α : Type} [Record α] {rid : Nat} {row : Row α}
    (h : m.needRow α rid = .ok row) : 1 ≤ rid ∧ rid ≤ m.rowCount (Record.table α) := by
  rw [needRow] at h
  split at h
  · next row' hrow' => exact (m.tables.rid_of_row hrow').2
  · cases h

theorem reportsCycle_of_needRow {α : Type} [Record α] {rid : Nat} {e : Fault}
    (h : m.needRow α rid = .error e) : e.reportsCycle = false := by
  rw [needRow] at h
  split at h <;> cases h
  rfl

theorem reportsCycle_of_string {index : Nat} {e : Fault} (h : m.string index = .error e) :
    e.reportsCycle = false := by
  rw [string, StringHeap.get] at h
  repeat' split at h
  all_goals cases h
  all_goals rfl

theorem serves_enclosings :
    m.enclosings.Serves (m.needRow TypeDefinition) m.enclosing? (m.rowCount .typeDef) where
  further _ := rfl
  range := range_of_needRow
  read_fault := reportsCycle_of_needRow
  name_fault := reportsCycle_of_string
  last_fault := reportsCycle_of_string

/-- A chain that ends is the path to its first type. -/
theorem typePath_of_ends {rid : Nat} {rids : List Nat} {path : TypePath}
    (hends : Ends m.enclosing? rid rids)
    (h : m.enclosings.Spells (m.needRow TypeDefinition) rids path.namespaceName path.names) :
    m.typePath rid = .ok path := by
  rw [typePath, typePathBy, serves_enclosings.walk_of_spells hends h]
  rfl

theorem typeFullName_of_typePath {rid : Nat} {path : TypePath} (h : m.typePath rid = .ok path) :
    m.typeFullName rid = .ok path.full := by
  rw [typePath] at h
  rw [typeFullName, typeFullNameBy, h]
  rfl

/-- What a type is listed in encloses it. -/
theorem enclosing?_of_mem_listedIn (hg : m.Gathered) (honce : m.NestedOnce) {outer rid : Nat}
    {name : String} (hmem : rid ∈ m.listedIn outer) (hname : m.simpleName rid = .ok name) :
    m.enclosing? rid = some outer := by
  obtain ⟨row, hrow, rfl⟩ := List.mem_map.mp hmem
  obtain ⟨hmem, hencloses⟩ := List.mem_filter.mp hrow
  have hrow : row ∈ m.nestedRows.filter (·.nested = row.nested) := by simp [hmem]
  obtain ⟨h1, h2⟩ := serves_enclosings.range_of_named hname
  have honly : m.nestedRows.filter (·.nested = row.nested) = [row] := by
    have hlength := honce row.nested h1 h2
    match hrows : m.nestedRows.filter (·.nested = row.nested) with
    | [] => simp [hrows] at hrow
    | [only] => simp_all
    | _ :: _ :: _ => simp [hrows] at hlength
  rw [hg.enclosing?_eq, honly]
  simpa using hencloses

theorem Spells.forall₂ {candidates rids : List Nat} {names : List String}
    (h : m.Spells candidates rids names) :
    List.Forall₂ (fun rid name => m.simpleName rid = .ok name) rids names := by
  induction h with
  | nil => exact .nil
  | cons _ named _ ih => exact .cons named ih

/-- Below a type whose chain ends, the types of a path are a chain that ends as that one does. -/
theorem ends_of_spells (hg : m.Gathered) (honce : m.NestedOnce) {top rid : Nat}
    {above outer : List Nat} {names : List String} (habove : Ends m.enclosing? top above)
    (h : m.Spells (m.listedIn top) (outer ++ [rid]) names) :
    Ends m.enclosing? rid (rid :: (outer.reverse ++ above)) := by
  induction outer generalizing top above names with
  | nil =>
    obtain _ | ⟨mem, named, _⟩ := h
    exact .step (enclosing?_of_mem_listedIn hg honce mem named) habove
  | cons next outer ih =>
    obtain _ | ⟨mem, named, rest⟩ := h
    have hnext := Ends.step (enclosing?_of_mem_listedIn hg honce mem named) habove
    simpa using ih hnext rest

/-- The types that are declared in a namespace have none around them and state the namespace. -/
theorem Gathered.of_mem_typesIn (hg : m.Gathered) {ns : String} {rid : Nat}
    (h : rid ∈ m.namespaces.typesIn ns) :
    m.enclosing? rid = none ∧ m.statedNamespace rid = .ok ns := by
  rw [hg.typesIn_eq] at h
  obtain ⟨row, hrow, rfl⟩ := List.mem_map.mp h
  obtain ⟨hmem, hstated⟩ := List.mem_filter.mp hrow
  rw [Bool.and_eq_true, decide_eq_true_eq] at hstated
  refine ⟨(hg.enclosing?_eq_none_iff _).mpr hstated.1, ?_⟩
  have hread : m.needRow TypeDefinition row.rid = .ok row := by
    rw [needRow, Module.row, m.tables.row_of_mem_rowList hmem]
  rw [statedNamespace, hread]
  exact hstated.2

/-- The types that the search went through from the outside are those around the last of them. -/
theorem typePath_of_spells (hg : m.Gathered) (honce : m.NestedOnce) {ns : String} {rid : Nat}
    {outer : List Nat} {names : List String}
    (h : m.Spells (m.namespaces.typesIn ns) (outer ++ [rid]) names) :
    m.typePath rid = .ok ⟨ns, names⟩ := by
  have hends : ∃ top ∈ m.namespaces.typesIn ns,
      top ∈ (outer ++ [rid]).reverse ∧ Ends m.enclosing? rid (outer ++ [rid]).reverse := by
    cases outer with
    | nil =>
      obtain _ | ⟨mem, _, _⟩ := h
      exact ⟨rid, mem, by simp, .last (hg.of_mem_typesIn mem).1⟩
    | cons top outer =>
      obtain _ | ⟨mem, _, rest⟩ := h
      have := ends_of_spells hg honce (.last (hg.of_mem_typesIn mem).1) rest
      exact ⟨top, mem, by simp, by simpa using this⟩
  obtain ⟨top, htop, hmem, hends⟩ := hends
  obtain ⟨hlast, hstated⟩ := hg.of_mem_typesIn htop
  refine typePath_of_ends hends ⟨List.forall₂_reverse_iff.mpr h.forall₂, top, ?_, hstated⟩
  exact hends.getLast?_eq hmem hlast

/-- The types around a type that was found are those of the name it was sought by. -/
theorem typePath_of_findType (hg : m.Gathered) (honce : m.NestedOnce) {n : TypeName} {rid : Nat}
    (h : m.findType n = .ok (some rid)) : m.typePath rid = .ok ⟨n.namespaceName, n.path⟩ := by
  rw [findType_eq_findPath, findPath_eq_descend hg] at h
  obtain ⟨outer, hspells⟩ := spells_of_descend h
  exact typePath_of_spells hg honce hspells

end Module
end MethodAtlas
