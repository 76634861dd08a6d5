import MethodAtlas.Token

/-!
# Coded indexes

A coded index refers to a row of one of several tables. The low bits hold a tag that selects the
table, the bits above them the row. `CodedKind.decode?_of_encode?` says that a permitted table and a
row come back from their encoding.
-/
namespace MethodAtlas

/-- The kinds of coded index of ECMA-335 II.24.2.6, each with its own choice of tables. -/
inductive CodedKind
  | typeDefOrRef | hasConstant | hasCustomAttribute | hasFieldMarshal | hasDeclSecurity
  | memberRefParent | hasSemantics | methodDefOrRef | memberForwarded | implementation
  | customAttributeType | resolutionScope | typeOrMethodDef
deriving DecidableEq, Repr, Inhabited

/-- A row of one of the tables; row zero refers to nothing. -/
structure CodedIndex where
  table : TableId
  row : Nat
deriving DecidableEq, Repr, Inhabited

namespace CodedIndex

def isNull (i : CodedIndex) : Bool := i.row == 0

def token (i : CodedIndex) : Token := Token.ofParts i.table i.row

end CodedIndex

namespace CodedKind

/-- All kinds. -/
def all : List CodedKind :=
  [typeDefOrRef, hasConstant, hasCustomAttribute, hasFieldMarshal, hasDeclSecurity,
    memberRefParent, hasSemantics, methodDefOrRef, memberForwarded, implementation,
    customAttributeType, resolutionScope, typeOrMethodDef]

/-- The name under which the standard lists a kind. -/
def name : CodedKind → String
  | typeDefOrRef => "TypeDefOrRef"
  | hasConstant => "HasConstant"
  | hasCustomAttribute => "HasCustomAttribute"
  | hasFieldMarshal => "HasFieldMarshal"
  | hasDeclSecurity => "HasDeclSecurity"
  | memberRefParent => "MemberRefParent"
  | hasSemantics => "HasSemantics"
  | methodDefOrRef => "MethodDefOrRef"
  | memberForwarded => "MemberForwarded"
  | implementation => "Implementation"
  | customAttributeType => "CustomAttributeType"
  | resolutionScope => "ResolutionScope"
  | typeOrMethodDef => "TypeOrMethodDef"

/-- The kind listed under a name. -/
def ofName? (s : String) : Option CodedKind := all.find? fun k => k.name == s

/-- The tables an index of this kind can refer to, in the order of their tags. -/
def targets : CodedKind → List TableId
  | typeDefOrRef => [.typeDef, .typeRef, .typeSpec]
  | hasConstant => [.field, .param, .property]
  | hasCustomAttribute =>
    [.methodDef, .field, .typeRef, .typeDef, .param, .interfaceImpl, .memberRef, .module,
      .declSecurity, .property, .event, .standAloneSig, .moduleRef, .typeSpec, .assembly,
      .assemblyRef, .file, .exportedType, .manifestResource, .genericParam,
      .genericParamConstraint, .methodSpec]
  | hasFieldMarshal => [.field, .param]
  | hasDeclSecurity => [.typeDef, .methodDef, .assembly]
  | memberRefParent => [.typeDef, .typeRef, .moduleRef, .methodDef, .typeSpec]
  | hasSemantics => [.event, .property]
  | methodDefOrRef => [.methodDef, .memberRef]
  | memberForwarded => [.field, .methodDef]
  | implementation => [.file, .assemblyRef, .exportedType]
  | customAttributeType => [.methodDef, .memberRef]
  | resolutionScope => [.module, .moduleRef, .assemblyRef, .typeRef]
  | typeOrMethodDef => [.typeDef, .methodDef]

/-- The tag of the first target. The first two tags of an attribute constructor are not used. -/
def firstTag : CodedKind → Nat
  | customAttributeType => 2
  | _ => 0

/-- The number of low bits that hold the tag. -/
def tagBits : CodedKind → Nat
  | hasFieldMarshal | hasSemantics | methodDefOrRef | memberForwarded | typeOrMethodDef => 1
  | typeDefOrRef | hasConstant | hasDeclSecurity | implementation | resolutionScope => 2
  | memberRefParent | customAttributeType => 3
  | hasCustomAttribute => 5

/-- The table a tag selects. -/
def table? (k : CodedKind) (tag : Nat) : Option TableId :=
  if tag < k.firstTag then none else k.targets[tag - k.firstTag]?

/-- The tag that selects a table. -/
def tag? (k : CodedKind) (t : TableId) : Option Nat :=
  (k.targets.idxOf? t).map (· + k.firstTag)

/-- The tag in a stored value. -/
def tagOf (k : CodedKind) (value : Nat) : Nat := value % (1 <<< k.tagBits)

/-- The index in a stored value, unless its tag selects no table. -/
def decode? (k : CodedKind) (value : Nat) : Option CodedIndex :=
  (k.table? (k.tagOf value)).map fun t => ⟨t, value >>> k.tagBits⟩

/-- The stored value of a row of a permitted table. -/
def encode? (k : CodedKind) (i : CodedIndex) : Option Nat :=
  (k.tag? i.table).map fun tag => (i.row <<< k.tagBits) + tag

theorem table?_of_tag? {k : CodedKind} {t : TableId} {tag : Nat} (h : k.tag? t = some tag) :
    k.table? tag = some t := by
  obtain ⟨i, hi, rfl⟩ := Option.map_eq_some_iff.1 h
  obtain ⟨hlt, heq, -⟩ := List.idxOf?_eq_some_iff.1 hi
  simp [table?, List.getElem?_eq_getElem hlt, heq]

theorem exists_tag? {k : CodedKind} {t : TableId} (h : t ∈ k.targets) :
    ∃ tag, k.tag? t = some tag := by
  cases hindex : k.targets.idxOf? t with
  | none => exact absurd h (List.idxOf?_eq_none_iff.mp hindex)
  | some i => exact ⟨i + k.firstTag, by rw [tag?, hindex]; rfl⟩

theorem length_targets_add_le (k : CodedKind) :
    k.targets.length + k.firstTag ≤ 1 <<< k.tagBits := by
  cases k <;> decide

theorem lt_of_table? {k : CodedKind} {t : TableId} {tag : Nat} (h : k.table? tag = some t) :
    tag < 1 <<< k.tagBits := by
  rw [table?] at h
  split at h
  · cases h
  · obtain ⟨hlt, -⟩ := List.getElem?_eq_some_iff.mp h
    have := length_targets_add_le k
    omega

/-- A row of the table that a tag selects comes back from what holds both. -/
theorem decode?_shiftLeft_add {k : CodedKind} {t : TableId} {tag : Nat} (h : k.table? tag = some t)
    (row : Nat) : k.decode? ((row <<< k.tagBits) + tag) = some ⟨t, row⟩ := by
  have hlt := lt_of_table? h
  rw [Nat.one_shiftLeft] at hlt
  have hmod : ((row <<< k.tagBits) + tag) % (1 <<< k.tagBits) = tag := by
    rw [Nat.shiftLeft_eq, Nat.one_shiftLeft, Nat.mul_add_mod_self_right, Nat.mod_eq_of_lt hlt]
  have hdiv : ((row <<< k.tagBits) + tag) >>> k.tagBits = row := by
    rw [Nat.shiftLeft_eq, Nat.shiftRight_eq_div_pow, Nat.mul_comm,
      Nat.mul_add_div (Nat.two_pow_pos _), Nat.div_eq_of_lt hlt, Nat.add_zero]
  simp [decode?, tagOf, hmod, hdiv, h]

/-- A row of a permitted table comes back from its stored value. -/
theorem decode?_of_encode? {k : CodedKind} {i : CodedIndex} {value : Nat}
    (h : k.encode? i = some value) : k.decode? value = some i := by
  obtain ⟨tag, htag, rfl⟩ := Option.map_eq_some_iff.1 h
  exact decode?_shiftLeft_add (table?_of_tag? htag) i.row

end CodedKind
end MethodAtlas
