import MethodAtlas.Bytes.Basic
import MethodAtlas.Table.Coded

/-!
# The columns of the tables

Tables follow one another without gaps, so that all of them have to be measured to find one. The
columns alone decide how wide a row is and how it is read.
-/
namespace MethodAtlas

/-- What a column stores. -/
inductive Column
  /-- A number of so many bytes. -/
  | fixed (bytes : Nat)
  /-- An offset in the string heap. -/
  | string
  /-- A number of an identifier in the heap of those. -/
  | guid
  /-- An offset in the blob heap. -/
  | blob
  /-- A row of one table. -/
  | row (table : TableId)
  /-- A row of one of several tables. -/
  | coded (kind : CodedKind)
deriving DecidableEq, Repr

namespace TableId
open Column

/-- The columns of a table in the order in which they are stored (ECMA-335 II.22). -/
@[reducible] def columns : TableId → List Column
  | module => [fixed 2, string, guid, guid, guid]
  | typeRef => [coded .resolutionScope, string, string]
  | typeDef => [fixed 4, string, string, coded .typeDefOrRef, row field, row methodDef]
  | fieldPtr => [row field]
  | field => [fixed 2, string, blob]
  | methodPtr => [row methodDef]
  | methodDef => [fixed 4, fixed 2, fixed 2, string, blob, row param]
  | paramPtr => [row param]
  | param => [fixed 2, fixed 2, string]
  | interfaceImpl => [row typeDef, coded .typeDefOrRef]
  | memberRef => [coded .memberRefParent, string, blob]
  | constant => [fixed 2, coded .hasConstant, blob]
  | customAttribute => [coded .hasCustomAttribute, coded .customAttributeType, blob]
  | fieldMarshal => [coded .hasFieldMarshal, blob]
  | declSecurity => [fixed 2, coded .hasDeclSecurity, blob]
  | classLayout => [fixed 2, fixed 4, row typeDef]
  | fieldLayout => [fixed 4, row field]
  | standAloneSig => [blob]
  | eventMap => [row typeDef, row event]
  | eventPtr => [row event]
  | event => [fixed 2, string, coded .typeDefOrRef]
  | propertyMap => [row typeDef, row property]
  | propertyPtr => [row property]
  | property => [fixed 2, string, blob]
  | methodSemantics => [fixed 2, row methodDef, coded .hasSemantics]
  | methodImpl => [row typeDef, coded .methodDefOrRef, coded .methodDefOrRef]
  | moduleRef => [string]
  | typeSpec => [blob]
  | implMap => [fixed 2, coded .memberForwarded, string, row moduleRef]
  | fieldRVA => [fixed 4, row field]
  | encLog => [fixed 4, fixed 4]
  | encMap => [fixed 4]
  | assembly => [fixed 4, fixed 2, fixed 2, fixed 2, fixed 2, fixed 4, blob, string, string]
  | assemblyProcessor => [fixed 4]
  | assemblyOS => [fixed 4, fixed 4, fixed 4]
  | assemblyRef =>
    [fixed 2, fixed 2, fixed 2, fixed 2, fixed 4, blob, string, string, blob]
  | assemblyRefProcessor => [fixed 4, row assemblyRef]
  | assemblyRefOS => [fixed 4, fixed 4, fixed 4, row assemblyRef]
  | file => [fixed 4, string, blob]
  | exportedType => [fixed 4, fixed 4, string, string, coded .implementation]
  | manifestResource => [fixed 4, fixed 4, string, coded .implementation]
  | nestedClass => [row typeDef, row typeDef]
  | genericParam => [fixed 2, fixed 2, coded .typeOrMethodDef, string]
  | methodSpec => [coded .methodDefOrRef, blob]
  | genericParamConstraint => [row genericParam, coded .typeDefOrRef]

end TableId

namespace Column

/-- The column for people to read. -/
def describe : Column → String
  | fixed bytes => "Fixed(" ++ toString bytes ++ ")"
  | string => "Str"
  | guid => "Guid"
  | blob => "Blob"
  | row t => "Table(" ++ t.name ++ ")"
  | coded k => "Coded(" ++ k.name ++ ")"

/-- The value that a column holds in a row. -/
@[reducible] def Value : Column → Type
  | coded _ => CodedIndex
  | _ => Nat

/-- The stored form of a value in a column of some bytes. -/
def write (bytes : Nat) : (c : Column) → c.Value → List UInt8
  | coded k, i => Bytes.toLE bytes ((k.encode? i).getD 0)
  | fixed _, v | string, v | guid, v | blob, v | row _, v => Bytes.toLE bytes v

/-- Values that a column of some bytes can store: numbers that fit, and rows of tables that a coded
index can refer to. -/
def Fits (bytes : Nat) : (c : Column) → c.Value → Prop
  | coded k, i => ∃ value ∈ k.encode? i, value < 1 <<< (8 * bytes)
  | fixed _, v | string, v | guid, v | blob, v | row _, v => v < 1 <<< (8 * bytes)

instance (bytes : Nat) : (c : Column) → (v : c.Value) → Decidable (c.Fits bytes v)
  | coded k, i => inferInstanceAs (Decidable (∃ value ∈ k.encode? i, value < 1 <<< (8 * bytes)))
  | fixed _, v | string, v | guid, v | blob, v | row _, v =>
    inferInstanceAs (Decidable (v < 1 <<< (8 * bytes)))

end Column

/-- The values that columns hold in a row. -/
@[reducible] def Cells : List Column → Type
  | [] => Unit
  | c :: cs => c.Value × Cells cs

namespace Cells
variable (width : Column → Nat)

/-- The bytes of columns side by side. -/
def size : List Column → Nat
  | [] => 0
  | c :: cs => width c + size cs

/-- The stored form of the values of columns side by side. -/
def write : (cs : List Column) → Cells cs → List UInt8
  | [], _ => []
  | c :: cs, (v, vs) => c.write (width c) v ++ write cs vs

/-- Values that columns can store. -/
def Fit : (cs : List Column) → Cells cs → Prop
  | [], _ => True
  | c :: cs, (v, vs) => c.Fits (width c) v ∧ Fit cs vs

/-- Whether columns can store values is decided one by one. -/
def decideFit : (cs : List Column) → (vs : Cells cs) → Decidable (Fit width cs vs)
  | [], _ => .isTrue trivial
  | c :: cs, (v, vs) =>
    have := decideFit cs vs
    inferInstanceAs (Decidable (c.Fits (width c) v ∧ Fit width cs vs))

instance (cs : List Column) (vs : Cells cs) : Decidable (Fit width cs vs) := decideFit width cs vs

end Cells

end MethodAtlas
