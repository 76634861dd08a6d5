import MethodAtlas.Table.Layout

/-!
# Records

The tables whose rows have a meaning to this library, each with a structure for what a row says.
A record is the columns of its table under names, and nothing else: `ofCells` and `toCells` are
inverse to each other. The columns that a record is read by are spelled out with it, apart from
those by which its table is measured.
-/
namespace MethodAtlas

/-- Types whose values are the rows of a table. -/
class Record (α : Type) where
  table : TableId
  /-- The columns that a row is read by. -/
  columns : List Column
  columns_eq : columns = table.columns
  ofCells : Cells columns → α
  toCells : α → Cells columns
  ofCells_toCells : ∀ a, ofCells (toCells a) = a
  toCells_ofCells : ∀ cs, toCells (ofCells cs) = cs

/-- A type of another module. -/
structure TypeReference where
  scope : CodedIndex
  name : Nat
  namespaceName : Nat
deriving DecidableEq, Repr

instance : Record TypeReference where
  table := .typeRef
  columns := [.coded .resolutionScope, .string, .string]
  columns_eq := rfl
  ofCells := fun (scope, name, ns, ()) => ⟨scope, name, ns⟩
  toCells := fun r => (r.scope, r.name, r.namespaceName, ())
  ofCells_toCells := fun _ => rfl
  toCells_ofCells := fun _ => rfl

/-- A type of the module. Its fields and methods are runs that end where the next type's begin. -/
structure TypeDefinition where
  flags : Nat
  name : Nat
  namespaceName : Nat
  base : CodedIndex
  fieldList : Nat
  methodList : Nat
deriving DecidableEq, Repr

instance : Record TypeDefinition where
  table := .typeDef
  columns := [.fixed 4, .string, .string, .coded .typeDefOrRef, .row .field, .row .methodDef]
  columns_eq := rfl
  ofCells := fun (flags, name, ns, base, fields, methods, ()) =>
    ⟨flags, name, ns, base, fields, methods⟩
  toCells := fun r => (r.flags, r.name, r.namespaceName, r.base, r.fieldList, r.methodList, ())
  ofCells_toCells := fun _ => rfl
  toCells_ofCells := fun _ => rfl

/-- An entry of the list that orders the methods of an edited module. -/
structure MethodPointer where
  method : Nat
deriving DecidableEq, Repr

instance : Record MethodPointer where
  table := .methodPtr
  columns := [.row .methodDef]
  columns_eq := rfl
  ofCells := fun (method, ()) => ⟨method⟩
  toCells := fun r => (r.method, ())
  ofCells_toCells := fun _ => rfl
  toCells_ofCells := fun _ => rfl

/-- A method of the module. Its parameters are a run that ends where the next method's begins. -/
structure MethodDefinition where
  address : Nat
  implFlags : Nat
  flags : Nat
  name : Nat
  signature : Nat
  paramList : Nat
deriving DecidableEq, Repr

instance : Record MethodDefinition where
  table := .methodDef
  columns := [.fixed 4, .fixed 2, .fixed 2, .string, .blob, .row .param]
  columns_eq := rfl
  ofCells := fun (address, implFlags, flags, name, signature, params, ()) =>
    ⟨address, implFlags, flags, name, signature, params⟩
  toCells := fun r => (r.address, r.implFlags, r.flags, r.name, r.signature, r.paramList, ())
  ofCells_toCells := fun _ => rfl
  toCells_ofCells := fun _ => rfl

/-- A parameter of a method; number zero in the sequence stands for the returned value. -/
structure Parameter where
  flags : Nat
  sequence : Nat
  name : Nat
deriving DecidableEq, Repr

instance : Record Parameter where
  table := .param
  columns := [.fixed 2, .fixed 2, .string]
  columns_eq := rfl
  ofCells := fun (flags, sequence, name, ()) => ⟨flags, sequence, name⟩
  toCells := fun r => (r.flags, r.sequence, r.name, ())
  ofCells_toCells := fun _ => rfl
  toCells_ofCells := fun _ => rfl

/-- A member of a type that is only referred to. -/
structure MemberReference where
  parent : CodedIndex
  name : Nat
  signature : Nat
deriving DecidableEq, Repr

instance : Record MemberReference where
  table := .memberRef
  columns := [.coded .memberRefParent, .string, .blob]
  columns_eq := rfl
  ofCells := fun (parent, name, signature, ()) => ⟨parent, name, signature⟩
  toCells := fun r => (r.parent, r.name, r.signature, ())
  ofCells_toCells := fun _ => rfl
  toCells_ofCells := fun _ => rfl

/-- An attribute: what carries it, how it is constructed and with which arguments. -/
structure CustomAttribute where
  parent : CodedIndex
  constructor : CodedIndex
  value : Nat
deriving DecidableEq, Repr

instance : Record CustomAttribute where
  table := .customAttribute
  columns := [.coded .hasCustomAttribute, .coded .customAttributeType, .blob]
  columns_eq := rfl
  ofCells := fun (parent, constructor, value, ()) => ⟨parent, constructor, value⟩
  toCells := fun r => (r.parent, r.constructor, r.value, ())
  ofCells_toCells := fun _ => rfl
  toCells_ofCells := fun _ => rfl

/-- Another file of the same assembly. -/
structure ModuleReference where
  name : Nat
deriving DecidableEq, Repr

instance : Record ModuleReference where
  table := .moduleRef
  columns := [.string]
  columns_eq := rfl
  ofCells := fun (name, ()) => ⟨name⟩
  toCells := fun r => (r.name, ())
  ofCells_toCells := fun _ => rfl
  toCells_ofCells := fun _ => rfl

/-- A type that is put together from others. -/
structure TypeSpecification where
  signature : Nat
deriving DecidableEq, Repr

instance : Record TypeSpecification where
  table := .typeSpec
  columns := [.blob]
  columns_eq := rfl
  ofCells := fun (signature, ()) => ⟨signature⟩
  toCells := fun r => (r.signature, ())
  ofCells_toCells := fun _ => rfl
  toCells_ofCells := fun _ => rfl

/-- Another assembly. -/
structure AssemblyReference where
  major : Nat
  minor : Nat
  build : Nat
  revision : Nat
  flags : Nat
  publicKeyOrToken : Nat
  name : Nat
  culture : Nat
  hashValue : Nat
deriving DecidableEq, Repr

instance : Record AssemblyReference where
  table := .assemblyRef
  columns := [.fixed 2, .fixed 2, .fixed 2, .fixed 2, .fixed 4, .blob, .string, .string, .blob]
  columns_eq := rfl
  ofCells := fun (major, minor, build, revision, flags, key, name, culture, hash, ()) =>
    ⟨major, minor, build, revision, flags, key, name, culture, hash⟩
  toCells := fun r =>
    (r.major, r.minor, r.build, r.revision, r.flags, r.publicKeyOrToken, r.name, r.culture,
      r.hashValue, ())
  ofCells_toCells := fun _ => rfl
  toCells_ofCells := fun _ => rfl

/-- A type that is declared inside another. -/
structure NestedClass where
  nested : Nat
  enclosing : Nat
deriving DecidableEq, Repr

instance : Record NestedClass where
  table := .nestedClass
  columns := [.row .typeDef, .row .typeDef]
  columns_eq := rfl
  ofCells := fun (nested, enclosing, ()) => ⟨nested, enclosing⟩
  toCells := fun r => (r.nested, r.enclosing, ())
  ofCells_toCells := fun _ => rfl
  toCells_ofCells := fun _ => rfl

namespace TypeDefinition

/-- Whether the type is an interface. -/
def isInterface (t : TypeDefinition) : Bool := t.flags.testBit 5

end TypeDefinition

namespace MethodDefinition

/-- The access that method flags grant, a number from zero to seven. -/
def accessOf (flags : Nat) : Nat := flags % 8

/-- Whether method flags let everybody call the method. -/
def isPublicFlags (flags : Nat) : Bool := accessOf flags == 6

def access (m : MethodDefinition) : Nat := accessOf m.flags

def isPublic (m : MethodDefinition) : Bool := isPublicFlags m.flags

end MethodDefinition
end MethodAtlas
