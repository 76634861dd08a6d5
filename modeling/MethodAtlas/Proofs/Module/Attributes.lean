import MethodAtlas.Module.Lookup
import MethodAtlas.Module.Members
import MethodAtlas.Module.Names
import MethodAtlas.Proofs.Table.Rows

/-!
# Modules that differ in their attributes

Two modules can say the same in all but the table of attributes. Nothing that is looked up, named
or listed in a module depends on that table, so both answer alike.
-/
namespace MethodAtlas

/-- Two tables with the same rows. -/
structure Table.Same {α : Type} [Record α] (t t' : Table α) : Prop where
  rowCount : t.rowCount = t'.rowCount
  get : t.get = t'.get

theorem Table.Same.toList {α : Type} [Record α] {t t' : Table α} (h : t.Same t') :
    t.toList = t'.toList := by
  rw [t.toList_eq, t'.toList_eq, h.rowCount, h.get]

namespace Module

/-- Two modules that say the same in all but their attributes. -/
structure SameButAttributes (m m' : Module) : Prop where
  strings : m.strings = m'.strings
  blobs : m.blobs = m'.blobs
  nesting : m.nesting = m'.nesting
  namespaces : m.namespaces = m'.namespaces
  rowCount : ∀ t, t ≠ .customAttribute → m.rowCount t = m'.rowCount t
  table : ∀ (α : Type) [Record α], Record.table α ≠ .customAttribute →
    Option.Rel Table.Same (m.table α) (m'.table α)

namespace SameButAttributes
variable {m m' : Module}

theorem refl (m : Module) : m.SameButAttributes m where
  strings := rfl
  blobs := rfl
  nesting := rfl
  namespaces := rfl
  rowCount := fun _ _ => rfl
  table := fun α _ _ => by
    cases m.table α with
    | none => exact .none
    | some t => exact .some ⟨rfl, rfl⟩

theorem symm (h : m.SameButAttributes m') : m'.SameButAttributes m where
  strings := h.strings.symm
  blobs := h.blobs.symm
  nesting := h.nesting.symm
  namespaces := h.namespaces.symm
  rowCount := fun t ht => (h.rowCount t ht).symm
  table := fun α _ hα => by
    have htable := h.table α hα
    generalize m.table α = t at htable
    generalize m'.table α = t' at htable
    cases htable with
    | none => exact .none
    | some hsame => exact .some ⟨hsame.rowCount.symm, hsame.get.symm⟩

theorem trans {m'' : Module} (h : m.SameButAttributes m') (h' : m'.SameButAttributes m'') :
    m.SameButAttributes m'' where
  strings := h.strings.trans h'.strings
  blobs := h.blobs.trans h'.blobs
  nesting := h.nesting.trans h'.nesting
  namespaces := h.namespaces.trans h'.namespaces
  rowCount := fun t ht => (h.rowCount t ht).trans (h'.rowCount t ht)
  table := fun α _ hα => by
    have htable := h.table α hα
    have htable' := h'.table α hα
    generalize m.table α = t at htable
    generalize m'.table α = t' at htable htable'
    generalize m''.table α = t'' at htable'
    cases htable with
    | none =>
      cases htable'
      exact .none
    | some hsame =>
      cases htable' with
      | some hsame' =>
        exact .some ⟨hsame.rowCount.trans hsame'.rowCount, hsame.get.trans hsame'.get⟩

variable (h : m.SameButAttributes m')
include h

theorem row {α : Type} [Record α] (hα : Record.table α ≠ .customAttribute) (rid : Nat) :
    m.row α rid = m'.row α rid := by
  have htable := h.table α hα
  change (m.table α).bind (·.get rid) = (m'.table α).bind (·.get rid)
  generalize m.table α = t at htable
  generalize m'.table α = t' at htable
  cases htable with
  | none => rfl
  | some hsame => exact congrFun hsame.get rid

theorem needRow {α : Type} [Record α] (hα : Record.table α ≠ .customAttribute) (rid : Nat) :
    m.needRow α rid = m'.needRow α rid := by
  rw [Module.needRow, Module.needRow, h.row hα]

theorem string (index : Nat) : m.string index = m'.string index := by
  rw [Module.string, Module.string, h.strings]

theorem blob (index : Nat) : m.blob index = m'.blob index := by
  rw [Module.blob, Module.blob, h.blobs]

theorem enclosing? (rid : Nat) : m.enclosing? rid = m'.enclosing? rid := by
  rw [Module.enclosing?, Module.enclosing?, h.nesting]

theorem nestedTypes (rid : Nat) : m.nestedTypes rid = m'.nestedTypes rid := by
  rw [Module.nestedTypes, Module.nestedTypes, h.nesting]

theorem findNamed (name : String) (rids : List Nat) :
    m.findNamed name rids = m'.findNamed name rids := by
  induction rids with
  | nil => rfl
  | cons rid rids ih =>
    rw [Module.findNamed, Module.findNamed, h.needRow (by decide)]
    simp only [h.string, ih]

theorem findPath (candidates : List Nat) (containing : List String) (name : String) :
    m.findPath candidates containing name = m'.findPath candidates containing name := by
  induction containing generalizing candidates with
  | nil => exact h.findNamed name candidates
  | cons outer containing ih =>
    rw [Module.findPath, Module.findPath, h.findNamed]
    simp only [h.nestedTypes, ih]

theorem findType (n : TypeName) : m.findType n = m'.findType n := by
  rw [Module.findType, Module.findType, h.namespaces]
  simp only [h.findPath]

theorem findFull (name : String) : m.findFull name = m'.findFull name := h.findType _

theorem typeFullName (rid : Nat) : m.typeFullName rid = m'.typeFullName rid := by
  have hread : m.needRow TypeDefinition = m'.needRow TypeDefinition :=
    funext fun _ => h.needRow (by decide) _
  simp only [Module.typeFullName, typeFullNameBy, typePathBy, enclosings, hread, h.string,
    h.enclosing?, h.rowCount .typeDef (by decide)]

theorem referencePath (rid : Nat) : m.referencePath rid = m'.referencePath rid := by
  have hread : m.needRow TypeReference = m'.needRow TypeReference :=
    funext fun _ => h.needRow (by decide) _
  simp only [Module.referencePath, referencePathBy, scopes, hread, h.string,
    h.rowCount .typeRef (by decide)]

theorem referenceFullName (rid : Nat) : m.referenceFullName rid = m'.referenceFullName rid := by
  rw [Module.referenceFullName, Module.referenceFullName, h.referencePath]

theorem methods (t : Row TypeDefinition) : m.methods t = m'.methods t := by
  have hmethods := h.table MethodDefinition (by decide)
  have hpointers := h.table MethodPointer (by decide)
  rw [Module.methods, Module.methods]
  simp only [h.row (α := TypeDefinition) (by decide)]
  generalize m.table MethodDefinition = ms at hmethods
  generalize m'.table MethodDefinition = ms' at hmethods
  generalize m.table MethodPointer = ps at hpointers
  generalize m'.table MethodPointer = ps' at hpointers
  cases hmethods with
  | none => rfl
  | some hmethods =>
    cases hpointers with
    | none => simp only [hmethods.rowCount, hmethods.get]
    | some hpointers => simp only [hmethods.get, hpointers.rowCount, hpointers.get]

theorem parameters (d : Row MethodDefinition) : m.parameters d = m'.parameters d := by
  have hparameters := h.table Parameter (by decide)
  rw [Module.parameters, Module.parameters]
  simp only [h.row (α := MethodDefinition) (by decide)]
  generalize m.table Parameter = ps at hparameters
  generalize m'.table Parameter = ps' at hparameters
  cases hparameters with
  | none => rfl
  | some hsame => simp only [hsame.rowCount, hsame.get]

theorem methodPlace? (rid : Nat) : m.methodPlace? rid = m'.methodPlace? rid := by
  have hpointers := h.table MethodPointer (by decide)
  rw [Module.methodPlace?, Module.methodPlace?]
  generalize m.table MethodPointer = ps at hpointers
  generalize m'.table MethodPointer = ps' at hpointers
  cases hpointers with
  | none => rfl
  | some hsame => simp only [hsame.toList]

theorem methodOwner? (rid : Nat) : m.methodOwner? rid = m'.methodOwner? rid := by
  have htypes := h.table TypeDefinition (by decide)
  rw [Module.methodOwner?, Module.methodOwner?, h.methodPlace?]
  simp only [h.methods]
  generalize m.table TypeDefinition = ts at htypes
  generalize m'.table TypeDefinition = ts' at htypes
  cases htypes with
  | none => rfl
  | some hsame => simp only [Option.bind_eq_bind, Option.bind_some, hsame.toList]

theorem publicMethodsNamed (t : Row TypeDefinition) (name : String) :
    m.publicMethodsNamed t name = m'.publicMethodsNamed t name := by
  rw [Module.publicMethodsNamed, Module.publicMethodsNamed, h.methods]
  simp only [h.string]

end SameButAttributes
end Module
end MethodAtlas
