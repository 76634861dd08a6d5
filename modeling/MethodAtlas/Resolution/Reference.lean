import MethodAtlas.Module.Lookup
import MethodAtlas.Module.Names
import MethodAtlas.Store
import MethodAtlas.Text.Quoted

/-!
# Following type references

A handle names a type as the columns of a module do. Resolving it finds the row that defines the
type: a definition is its own, a reference is followed to the assembly that its scope ends in, in
which the type is looked up by name. Which module an assembly is, a locator tells.
-/
namespace MethodAtlas

/-- A type as a column names it. -/
inductive TypeHandle
  /-- No type. -/
  | nil
  | definition (rid : Nat)
  | reference (rid : Nat)
  | specification (rid : Nat)
deriving DecidableEq, Repr

namespace TypeHandle

/-- The type that a coded index names. -/
def ofCoded (i : CodedIndex) : TypeHandle :=
  if i.isNull then nil
  else
    match i.table with
    | .typeDef => definition i.row
    | .typeRef => reference i.row
    | .typeSpec => specification i.row
    | _ => nil

end TypeHandle

/-- An opened module and the path that it was found at. -/
structure LocatedModule where
  path : String
  opened : OpenModule

namespace LocatedModule

/-- The module itself. -/
def module (m : LocatedModule) : Module := m.opened.module

/-- Whether a path is that of the module. -/
def isAt (m : LocatedModule) (path : String) : Bool := PathKey.ofPath m.path == PathKey.ofPath path

/-- Whether two modules have the same path. -/
def samePath (m n : LocatedModule) : Bool := m.isAt n.path

/-- The module by its path, for people to read. -/
def describe (m : LocatedModule) : String :=
  "ResolvedModule \x7b path: " ++ Text.quote m.path ++ ", .. \x7d"

end LocatedModule

/-- Where a type is defined. -/
inductive FoundType
  /-- In the module that names it. -/
  | here (rid : Nat)
  /-- In another module. -/
  | elsewhere (module : LocatedModule) (rid : Nat)

namespace FoundType

/-- The defining module and the row there, for a type named in `current`. -/
def place (current : LocatedModule) : FoundType → LocatedModule × Nat
  | here rid => (current, rid)
  | elsewhere module rid => (module, rid)

end FoundType

/-- Why a type could not be resolved although nothing is damaged. -/
inductive ResolveFailure
  | notFound
  | ambiguous
  | unsupportedShape
  | moduleNotFound
deriving DecidableEq, Repr

namespace ResolveFailure

def all : List ResolveFailure := [notFound, ambiguous, unsupportedShape, moduleNotFound]

/-- The text of a failure. -/
def reason : ResolveFailure → String
  | notFound => "type not found"
  | ambiguous => "ambiguous match"
  | unsupportedShape => "unsupported reference shape"
  | moduleNotFound => "module not found"

end ResolveFailure

/-- What became of a handle. -/
inductive Resolution
  /-- The handle names no type. -/
  | nil
  | found (type : FoundType)
  | failed (why : ResolveFailure)

/-- The name of the assembly that a reference leads to, and the name of the type there; none if
the reference does not lead to an assembly. -/
def Module.referenceTarget (m : Module) (rid : Nat) :
    Except Fault (Option (String × TypeName)) := do
  let (path, scope) ← m.referencePath rid
  if scope.table ≠ .assemblyRef ∨ scope.isNull then pure none
  else
    let assembly ← m.needRow AssemblyReference scope.row
    let name ← m.string assembly.record.name
    pure (some (name, path.toTypeName))

/-- Looks a type up in what a locator found. -/
def resolveIn (name : TypeName) : Option LocatedModule → Except Fault Resolution
  | none => .ok (.failed .moduleNotFound)
  | some target => do
    match ← target.module.findType name with
    | none => pure (.failed .notFound)
    | some rid => pure (.found (.elsewhere target rid))

/-- Resolves a handle that a module names a type by. The locator is asked for the module of an
assembly, if the handle leads to one. -/
def resolveType {m : Type → Type} [Monad m]
    (locate : String → ExceptT Fault m (Option LocatedModule)) (module : Module) :
    TypeHandle → ExceptT Fault m Resolution
  | .nil => pure .nil
  | .definition rid => pure (.found (.here rid))
  | .specification _ => pure (.failed .unsupportedShape)
  | .reference rid => do
    match ← ExceptT.mk (pure (module.referenceTarget rid)) with
    | none => pure (.failed .unsupportedShape)
    | some (assembly, name) =>
      let target ← locate assembly
      ExceptT.mk (pure (resolveIn name target))

end MethodAtlas
