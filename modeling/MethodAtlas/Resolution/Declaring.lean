import MethodAtlas.Module.Members
import MethodAtlas.Navigation.Config
import MethodAtlas.Resolution.Locator

/-!
# The type that declares a method

A test is reported on the type that runs it, which may have inherited it. The walk goes from the
reported type to its base types, in other modules too, and looks for the one that declares a
public method of the name. A type with several such methods is passed over, which the events of the
walk tell. A method of the reported type itself counts only if no base type has one as well, for
then nobody can tell which was meant.
-/
namespace MethodAtlas
namespace Declaring

/-- What is looked for. -/
structure Sought where
  origin : String
  typeName : String
  methodName : String
deriving DecidableEq, Repr

/-- What a look at one type says. -/
inductive Finding
  /-- The walk ends with this answer. -/
  | answer (target : Option Target)
  /-- The walk goes on to the base type, if it can. -/
  | goOn (base : TypeHandle) (candidate : Option Target)
deriving DecidableEq

variable (sought : Sought)

/-- The reported method as it was named. -/
def Sought.target : Target := ⟨sought.origin, sought.typeName, sought.methodName⟩

/-- Records that a type is passed over. The event holds the full name of the type, and a name that
cannot be read is a fault like any other. -/
def recordPassedOver (config : Config) (m : LocatedModule) (rid : Nat) : Except Fault Unit :=
  if config.debugEvents then discard (m.module.typeFullName rid) else pure ()

/-- Looks at a type that is the reported one or one of its base types. -/
def inspect (config : Config) (reported : Bool) (candidate : Option Target) (m : LocatedModule)
    (rid : Nat) : Except Fault Finding := do
  let type ← m.module.needRow TypeDefinition rid
  let matching ← m.module.publicMethodsNamed type sought.methodName
  let base := TypeHandle.ofCoded type.record.base
  match matching with
  | [] => pure (.goOn base candidate)
  | [_] =>
    if reported then pure (.goOn base (some sought.target))
    else if candidate.isSome then pure (.answer none)
    else
      let name ← m.module.typeFullName rid
      pure (.answer (some ⟨m.path, name, sought.methodName⟩))
  | _ :: _ :: _ =>
    recordPassedOver config m rid
    pure (.goOn base candidate)

/-- The type that a handle is resolved to. What cannot be resolved ends the walk, whatever the
reason. -/
def baseOf (disk : Disk) (config : Config) (m : LocatedModule) (base : TypeHandle) :
    Query (Option (LocatedModule × Nat)) := do
  match ← (resolveBeside disk config.extensions m base).attempt with
  | .ok (.found type) => pure (some (type.place m))
  | .ok .nil | .ok (.failed _) | .error _ => pure none

/-- The walk from a type on, which looks at `left` types at most. -/
def walk (disk : Disk) (config : Config) :
    (left : Nat) → (reported : Bool) → Option Target → LocatedModule → Nat → Query (Option Target)
  | 0, _, candidate, _, _ => pure candidate
  | left + 1, reported, candidate, m, rid => do
    match ← Query.ofExcept (inspect sought config reported candidate m rid) with
    | .answer target => pure target
    | .goOn base candidate =>
      match ← baseOf disk config m base with
      | none => pure candidate
      | some (next, rid) => walk disk config left false candidate next rid

end Declaring

open Declaring in
/-- The type that declares the public method that was reported on a type of a module. -/
def findDeclaringType (disk : Disk) (config : Config) (origin typeName methodName : String) :
    Query (Option Target) := do
  let opened ← Query.module disk origin
  match ← Query.ofExcept (opened.module.findFull typeName) with
  | none => pure none
  | some rid =>
    walk ⟨origin, typeName, methodName⟩ disk config (config.depthLimit + 1) true none
      ⟨origin, opened⟩ rid

end MethodAtlas
