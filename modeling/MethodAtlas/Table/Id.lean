/-!
# The metadata tables

A module describes itself in numbered tables: its types, methods, attributes and what it refers
to in other modules. Each table has a number, at which it also appears in the bit vector of
present tables.
-/
namespace MethodAtlas

/-- The tables of ECMA-335 II.22, in the order of their numbers. -/
inductive TableId
  | module | typeRef | typeDef | fieldPtr | field | methodPtr | methodDef | paramPtr | param
  | interfaceImpl | memberRef | constant | customAttribute | fieldMarshal | declSecurity
  | classLayout | fieldLayout | standAloneSig | eventMap | eventPtr | event | propertyMap
  | propertyPtr | property | methodSemantics | methodImpl | moduleRef | typeSpec | implMap
  | fieldRVA | encLog | encMap | assembly | assemblyProcessor | assemblyOS | assemblyRef
  | assemblyRefProcessor | assemblyRefOS | file | exportedType | manifestResource | nestedClass
  | genericParam | methodSpec | genericParamConstraint
deriving DecidableEq, Repr, Inhabited

namespace TableId

/-- All tables in the order of their numbers. -/
def all : List TableId :=
  [module, typeRef, typeDef, fieldPtr, field, methodPtr, methodDef, paramPtr, param,
    interfaceImpl, memberRef, constant, customAttribute, fieldMarshal, declSecurity,
    classLayout, fieldLayout, standAloneSig, eventMap, eventPtr, event, propertyMap,
    propertyPtr, property, methodSemantics, methodImpl, moduleRef, typeSpec, implMap,
    fieldRVA, encLog, encMap, assembly, assemblyProcessor, assemblyOS, assemblyRef,
    assemblyRefProcessor, assemblyRefOS, file, exportedType, manifestResource, nestedClass,
    genericParam, methodSpec, genericParamConstraint]

/-- The number of tables. -/
def count : Nat := 45

/-- The number of a table. -/
def number (t : TableId) : Nat := t.ctorIdx

/-- The table with a given number. -/
def ofNumber? (n : Nat) : Option TableId := all[n]?

@[simp] theorem length_all : all.length = count := rfl

theorem number_lt (t : TableId) : t.number < count := by cases t <;> decide

@[simp] theorem ofNumber?_number (t : TableId) : ofNumber? t.number = some t := by
  cases t <;> rfl

theorem number_injective {s t : TableId} (h : s.number = t.number) : s = t := by
  have := ofNumber?_number s
  rw [h, ofNumber?_number] at this
  exact (Option.some.inj this).symm

theorem mem_all (t : TableId) : t ∈ all :=
  List.mem_of_getElem? (ofNumber?_number t)

/-- The name under which the standard lists a table. -/
def name : TableId → String
  | module => "Module"
  | typeRef => "TypeRef"
  | typeDef => "TypeDef"
  | fieldPtr => "FieldPtr"
  | field => "Field"
  | methodPtr => "MethodPtr"
  | methodDef => "MethodDef"
  | paramPtr => "ParamPtr"
  | param => "Param"
  | interfaceImpl => "InterfaceImpl"
  | memberRef => "MemberRef"
  | constant => "Constant"
  | customAttribute => "CustomAttribute"
  | fieldMarshal => "FieldMarshal"
  | declSecurity => "DeclSecurity"
  | classLayout => "ClassLayout"
  | fieldLayout => "FieldLayout"
  | standAloneSig => "StandAloneSig"
  | eventMap => "EventMap"
  | eventPtr => "EventPtr"
  | event => "Event"
  | propertyMap => "PropertyMap"
  | propertyPtr => "PropertyPtr"
  | property => "Property"
  | methodSemantics => "MethodSemantics"
  | methodImpl => "MethodImpl"
  | moduleRef => "ModuleRef"
  | typeSpec => "TypeSpec"
  | implMap => "ImplMap"
  | fieldRVA => "FieldRVA"
  | encLog => "EncLog"
  | encMap => "EncMap"
  | assembly => "Assembly"
  | assemblyProcessor => "AssemblyProcessor"
  | assemblyOS => "AssemblyOS"
  | assemblyRef => "AssemblyRef"
  | assemblyRefProcessor => "AssemblyRefProcessor"
  | assemblyRefOS => "AssemblyRefOS"
  | file => "File"
  | exportedType => "ExportedType"
  | manifestResource => "ManifestResource"
  | nestedClass => "NestedClass"
  | genericParam => "GenericParam"
  | methodSpec => "MethodSpec"
  | genericParamConstraint => "GenericParamConstraint"

/-- The table listed under a name. -/
def ofName? (s : String) : Option TableId := all.find? fun t => t.name == s

end TableId
end MethodAtlas
