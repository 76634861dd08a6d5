import MethodAtlas.Resolution.Reference

/-!
# Finding modules in a directory

The module of an assembly lies beside the module that refers to it, under the assembly's name and
one of some extensions. They are tried in turn; only a missing file leads on to the next.
-/
namespace MethodAtlas

/-- The module of a name in a directory, if there is one. -/
def locateIn (disk : Disk) (directory name : String) :
    (extensions : List String) → Query (Option LocatedModule)
  | [] => pure none
  | extension :: extensions => do
    let path := Path.module directory name extension
    match ← (Query.module disk path).attempt with
    | .ok opened => pure (some ⟨path, opened⟩)
    | .error e => if e.isNotFound then locateIn disk directory name extensions else throw e

/-- The module of a name in the directory of a module, if there is one. -/
def locateBeside (disk : Disk) (extensions : List String) (module name : String) :
    Query (Option LocatedModule) :=
  locateIn disk (Path.directoryOf module) name extensions

/-- Resolves a handle that a module names a type by; other modules are looked for beside it. -/
def resolveBeside (disk : Disk) (extensions : List String) (m : LocatedModule)
    (handle : TypeHandle) : Query Resolution :=
  resolveType (locateBeside disk extensions m.path) m.module handle

end MethodAtlas
