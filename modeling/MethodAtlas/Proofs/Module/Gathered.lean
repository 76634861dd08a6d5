import MethodAtlas.Proofs.Module.Reading
import MethodAtlas.Proofs.Name.Namespaces
import MethodAtlas.Proofs.Table.Rows

/-!
# What reading a module gathers

A module is read from a file only together with the nesting and the namespaces of its types, and
both say what the tables say. `gathered_of_ofBytes` derives that for every module that is read, and
the lemmas after it answer for the three lookups: the type that encloses a type, the types that lie
in a type, and the types of a namespace.
-/
namespace MethodAtlas

namespace Nesting

/-- The last row of a nested type tells what encloses it. -/
theorem enclosing?_ofList (rows : List NestedClass) (rid : Nat) :
    (ofList rows).enclosing? rid =
      ((rows.filter (·.nested = rid)).getLast?).map (·.enclosing) := by
  induction rows with
  | nil => simp
  | cons row rows ih =>
    rw [enclosing?_ofList_cons, ih, List.filter_cons]
    by_cases h : row.nested = rid
    · simp only [h, decide_true, if_true]
      cases hrest : rows.filter (·.nested = rid) with
      | nil => simp
      | cons other others => simp [List.getLast?_cons]
    · simp [h]

end Nesting

namespace Module

/-- Every module that is read from a file has gathered what its tables say. -/
theorem gathered_of_ofBytes {readHeaders : HeaderReader} {bytes : ByteArray} {m : Module}
    (h : ofBytes readHeaders bytes = .ok m) :
    m.Gathered := by
  obtain ⟨image, -, hm⟩ := Outcome.bind_eq_ok.mp h
  obtain ⟨-, metadata, -, -, hgathered⟩ := ofImage_eq_ok_iff.mp hm
  exact hgathered

variable (m : Module)

/-- What the rows of nested types say, in the order of the table. -/
def nestedRows : List NestedClass := (m.tables.readableRows NestedClass).map (·.record)

/-- Whether no row names a type as nested. -/
def isOutermost (rid : Nat) : Bool := m.nestedRows.all fun row => row.nested ≠ rid

/-- The types that the rows tell to lie directly in a type, in the order of the table. -/
def listedIn (rid : Nat) : List Nat :=
  (m.nestedRows.filter (·.enclosing = rid)).map (·.nested)

variable {m}

theorem Gathered.nesting_eq (h : m.Gathered) : m.nesting = .ofList m.nestedRows := by
  rw [h.nesting, m.tables.rowList_eq_of_uncoded (by decide), nestedRows]

theorem Gathered.nestedTypes_eq (h : m.Gathered) (rid : Nat) :
    m.nestedTypes rid = m.listedIn rid := by
  rw [nestedTypes, h.nesting_eq, Nesting.members_ofList, listedIn]

theorem Gathered.enclosing?_eq (h : m.Gathered) (rid : Nat) :
    m.enclosing? rid =
      ((m.nestedRows.filter (·.nested = rid)).getLast?).map (·.enclosing) := by
  rw [enclosing?, h.nesting_eq, Nesting.enclosing?_ofList]

theorem Gathered.enclosing?_eq_none_iff (h : m.Gathered) (rid : Nat) :
    m.enclosing? rid = none ↔ m.isOutermost rid = true := by
  simp [h.enclosing?_eq, isOutermost]

/-- Declaring the types of some rows adds to each namespace those of its own rows, in order. -/
theorem declareTypes_spec {strings : StringHeap} {nesting : Nesting}
    {rows : List (Row TypeDefinition)} {tree result : NamespaceTree} (hwf : tree.WellFormed)
    (h : declareTypes strings nesting rows tree = .ok result) :
    result.WellFormed ∧ ∀ name, result.typesIn name = tree.typesIn name ++
      (rows.filter fun row => (nesting.enclosing? row.rid).isNone &&
        strings.get row.record.namespaceName = .ok name).map (·.rid) := by
  induction rows generalizing tree with
  | nil =>
    cases h
    exact ⟨hwf, by simp⟩
  | cons row rows ih =>
    rw [declareTypes] at h
    cases he : nesting.enclosing? row.rid with
    | some outer =>
      rw [he] at h
      obtain ⟨hresult, htypes⟩ := ih hwf h
      exact ⟨hresult, fun name => by rw [htypes, List.filter_cons]; simp [he]⟩
    | none =>
      rw [he] at h
      cases hs : strings.get row.record.namespaceName with
      | error e => simp [hs] at h
      | ok ns =>
        rw [hs] at h
        obtain ⟨hresult, htypes⟩ := ih (hwf.insert ns row.rid) h
        refine ⟨hresult, fun name => ?_⟩
        rw [htypes, NamespaceTree.typesIn_insert hwf, List.filter_cons]
        by_cases hn : ns = name <;> simp [he, hs, hn]

/-- The types of a namespace are the outermost types whose namespace is spelled like it. -/
theorem Gathered.typesIn_eq (h : m.Gathered) (name : String) :
    m.namespaces.typesIn name =
      ((m.tables.rowList TypeDefinition).filter fun row => m.isOutermost row.rid &&
        m.string row.record.namespaceName = .ok name).map (·.rid) := by
  rw [(declareTypes_spec NamespaceTree.wellFormed_empty h.namespaces).2,
    NamespaceTree.typesIn_empty, List.nil_append]
  congr 1
  apply List.filter_congr
  intro row _
  have houter : (m.nesting.enclosing? row.rid).isNone = m.isOutermost row.rid := by
    rw [Bool.eq_iff_iff, Option.isNone_iff_eq_none]
    exact h.enclosing?_eq_none_iff row.rid
  rw [houter]
  rfl

end Module
end MethodAtlas
