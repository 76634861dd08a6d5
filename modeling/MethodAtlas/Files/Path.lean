import MethodAtlas.Text.Lowercase

/-!
# Paths

Paths are texts whose components are separated by slashes. Two paths name the same module if they
are equal in lower case.
-/
namespace MethodAtlas

namespace Path

/-- A component that names nothing of its own. -/
def isBlank (component : String) : Bool := component == "" || component == "."

/-- The components without the last that is not blank, and without what is blank before it. -/
def dropLast? (components : List String) : Option (List String) :=
  match components.reverse.dropWhile isBlank with
  | [] => none
  | _ :: before => some (before.dropWhile isBlank).reverse

def joinComponents (components : List String) : String := "/".intercalate components

/-- The directory that a path lies in. The empty path and that of all files lie in none. A slash
or a dot at the very start counts; elsewhere repeated slashes and dots do not. -/
def parent? (path : String) : Option String :=
  match Text.split '/' path with
  | "" :: rest =>
    if path.isEmpty then none else (dropLast? rest).map fun before => "/" ++ joinComponents before
  | "." :: rest =>
    match dropLast? rest with
    | none => some ""
    | some before => some (joinComponents ("." :: before))
  | components => (dropLast? components).map joinComponents

/-- Whether a path starts at the directory of all files. -/
def isAbsolute (path : String) : Bool := path.toList.head? == some '/'

/-- A path below a directory. -/
def join (directory path : String) : String :=
  if isAbsolute path then path
  else if directory.isEmpty || directory.toList.getLast? == some '/' then directory ++ path
  else directory ++ "/" ++ path

/-- The path of a module in a directory, from its name and its extension. -/
def module (directory name extension : String) : String :=
  join directory (name ++ "." ++ extension)

/-- The directory that a module lies in, or the empty path. -/
def directoryOf (path : String) : String := (parent? path).getD ""

end Path

/-- What paths of the same module have in common. -/
structure PathKey where
  text : String
deriving DecidableEq, Repr

namespace PathKey

/-- The key of a path. -/
def ofPath (path : String) : PathKey := ⟨Text.lowercase path⟩

end PathKey
end MethodAtlas
