import MethodAtlas.Attribute.Decoder
import MethodAtlas.Module.Members
import MethodAtlas.Navigation.Config
import MethodAtlas.Resolution.Locator
import MethodAtlas.Signature.Decoder

/-!
# Generated types

The code of an asynchronous method or an iterator lies in a type that is generated for it. The
method carries an attribute that names this type in an argument of its constructor. A method with
several such attributes is not followed.
-/
namespace MethodAtlas
namespace StateMachine

/-- The attributes that mark a method whose code lies in a generated type: their common base, and
those of the framework, whose own module is rarely at hand. -/
def markers : List String :=
  ["System.Runtime.CompilerServices.StateMachineAttribute",
    "System.Runtime.CompilerServices.AsyncStateMachineAttribute",
    "System.Runtime.CompilerServices.IteratorStateMachineAttribute",
    "System.Runtime.CompilerServices.AsyncIteratorStateMachineAttribute"]

/-- The type whose values name types. -/
def systemType : String := "System.Type"

/-- The name of the parameter that takes the generated type. -/
def parameterName : String := "stateMachineType"

/-- The constructor of an attribute. -/
structure Constructor where
  /-- The type of the attribute. -/
  type : TypeHandle
  /-- The place of the constructor's signature in the blob heap. -/
  signature : Nat
  /-- The constructor itself, if it lies in the same module. -/
  definition : Option (Row MethodDefinition)

/-- The constructor that an attribute names, unless no type owns it. -/
def constructorOf (m : Module) (i : CodedIndex) : Except Fault (Option Constructor) :=
  match i.table with
  | .methodDef => do
    let method ← m.needRow MethodDefinition i.row
    match m.methodOwner? i.row with
    | none => .error (.malformed (.methodWithoutOwner i.row))
    | some owner => pure (some ⟨.definition owner.rid, method.record.signature, some method⟩)
  | .memberRef => do
    let member ← m.needRow MemberReference i.row
    let parent := member.record.parent
    if (parent.table = .typeDef ∨ parent.table = .typeRef) ∧ ¬ parent.isNull then
      pure (some ⟨.ofCoded parent, member.record.signature, none⟩)
    else pure none
  | _ => .ok none

/-- The full name of the type that a token names, if it is a definition or a reference. -/
def tokenName (m : Module) (t : Token) : Except Fault (Option String) :=
  if t.isOf .typeRef then some <$> m.referenceFullName t.row
  else if t.isOf .typeDef then some <$> m.typeFullName t.row
  else .ok none

/-- What a class or value type of a signature is as an argument. Damage makes it unknown. -/
def classify (m : Module) : SignatureType → ArgumentType
  | .classType token =>
    match tokenName m token with
    | .ok (some name) => if name = systemType then .scalar .systemType else .unsupported
    | _ => .unsupported
  | .valueType _ => .enum
  | _ => .unsupported

/-- The types of a constructor's arguments. -/
def argumentTypes (m : Module) (c : Constructor) : Except Fault (List ArgumentType) := do
  let bytes ← m.blob c.signature
  let signature ← Signature.method.decode bytes
  pure (signature.parameters.map fun p => ArgumentType.ofSignature (classify m) p.type)

/-- The place of the argument that takes the generated type, as the first of these parameters with
the right name tells it. Number zero in the sequence is no parameter. -/
def namedPlace (m : Module) (types : List ArgumentType) :
    List (Row Parameter) → Except Fault (Option Nat)
  | [] => .ok none
  | p :: rest =>
    if p.record.sequence = 0 then namedPlace m types rest
    else do
      let name ← m.string p.record.name
      if name = parameterName then
        let place := p.record.sequence - 1
        pure (if types[place]? = some (.scalar .systemType) then some place else none)
      else namedPlace m types rest

/-- The place of the only argument that names a type. -/
def onlyPlace (types : List ArgumentType) : Option Nat :=
  match types.zipIdx.filter fun (t, _) => t = .scalar .systemType with
  | [(_, place)] => some place
  | _ => none

/-- The place of the argument that takes the generated type. A constructor of the same module is
asked for the names of its parameters, if it has any. -/
def typePlace (m : Module) (c : Constructor) (types : List ArgumentType) :
    Except Fault (Option Nat) :=
  match (c.definition.map m.parameters).getD [] with
  | [] => .ok (onlyPlace types)
  | parameters => namedPlace m types parameters

/-- The generated type that an attribute names, if it names one that can be read. -/
def generatedType (m : Module) (c : Constructor) (value : Nat) : Except Fault (Option String) := do
  let types ← argumentTypes m c
  match ← typePlace m c types with
  | none => pure none
  | some place =>
    let leading := types.take (place + 1)
    if leading.contains .unsupported then pure none
    else
      let bytes ← m.blob value
      match Attribute.fixedArguments bytes leading with
      | .error .notSupported => pure none
      | .error e => .error e
      | .ok arguments =>
        match arguments.getLast? with
        | some (.scalar (.typeName (some name))) => pure (some (QualifiedName.stripAssembly name))
        | _ => pure none

/-- The full name of the type that a handle names in a module, if it is one that has a name. -/
def handleName (m : Module) : TypeHandle → Except Fault (Option String)
  | .definition rid => some <$> m.typeFullName rid
  | .reference rid => some <$> m.referenceFullName rid
  | .nil | .specification _ => .ok none

/-- The base type of the type that a handle is resolved to, and the module that names it. What
cannot be resolved has none, whatever the reason. -/
def baseOf (disk : Disk) (config : Config) (m : LocatedModule) (handle : TypeHandle) :
    Query (Option (LocatedModule × TypeHandle)) := do
  match ← (resolveBeside disk config.extensions m handle).attempt with
  | .ok (.found type) =>
    let (next, rid) := type.place m
    let row ← Query.ofExcept (next.module.needRow TypeDefinition rid)
    pure (some (next, TypeHandle.ofCoded row.record.base))
  | .ok .nil | .ok (.failed _) | .error _ => pure none

/-- Whether one of the first `left` types from a handle on is a marker, each the base type of the
one before it. -/
def isMarker (disk : Disk) (config : Config) :
    (left : Nat) → LocatedModule → TypeHandle → Query Bool
  | 0, _, _ => pure false
  | left + 1, m, handle => do
    match ← Query.ofExcept (handleName m.module handle) with
    | none => pure false
    | some name =>
      if markers.contains name then pure true
      else
        match ← baseOf disk config m handle with
        | none => pure false
        | some (next, base) => isMarker disk config left next base

/-- The generated type that one attribute names, if it is a marker that names one. -/
def generatedBy (disk : Disk) (config : Config) (m : LocatedModule) (a : CustomAttribute) :
    Query (Option String) := do
  match ← Query.ofExcept (constructorOf m.module a.constructor) with
  | none => pure none
  | some c =>
    if ← isMarker disk config (config.depthLimit + 1) m c.type then
      Query.ofExcept (generatedType m.module c a.value)
    else pure none

/-- The only generated type that these attributes name, besides one that was found before. A
second one ends the search without an answer. -/
def onlyGenerated (disk : Disk) (config : Config) (m : LocatedModule) :
    Option String → List CustomAttribute → Query (Option String)
  | found, [] => pure found
  | found, a :: rest => do
    match ← generatedBy disk config m a with
    | none => onlyGenerated disk config m found rest
    | some generated =>
      if found.isSome then pure none else onlyGenerated disk config m (some generated) rest

/-- The attributes of a method, in the order of their rows. -/
def attributesOf (m : Module) (method : Nat) : List CustomAttribute :=
  ((m.tables.rowList CustomAttribute).map (·.record)).filter fun a =>
    a.parent.table = .methodDef ∧ a.parent.row = method

/-- The only public method of a type that has a name. -/
def onlyMethod (m : Module) (rid : Nat) (name : String) : Except Fault (Option Nat) := do
  let type ← m.needRow TypeDefinition rid
  match ← m.publicMethodsNamed type name with
  | [method] => pure (some method.rid)
  | _ => pure none

end StateMachine

open StateMachine in
/-- The method that holds the code of a public method that was reported on a type of a module, if
it lies in a generated type. -/
def findStateMachine (disk : Disk) (config : Config) (origin typeName methodName : String) :
    Query (Option Target) := do
  let opened ← Query.module disk origin
  match ← Query.ofExcept (opened.module.findFull typeName) with
  | none => pure none
  | some rid =>
    match ← Query.ofExcept (onlyMethod opened.module rid methodName) with
    | none => pure none
    | some method =>
      let attributes := attributesOf opened.module method
      let generated ← onlyGenerated disk config ⟨origin, opened⟩ none attributes
      pure (generated.map fun name => ⟨origin, name, config.stateMachineMethod⟩)

end MethodAtlas
