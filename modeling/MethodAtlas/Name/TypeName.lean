import MethodAtlas.Name.Namespace

/-!
# Type names

A full name such as `Company.Tests.Outer+Inner` joins the namespace, the containing types and the
type itself. The namespace ends at the last dot before the first plus sign; plus signs separate
the types. A stored name can be followed by a comma and the assembly of the type. Commas between
square brackets belong to the type arguments of a generic type and do not count.
-/
namespace MethodAtlas

/-- A type name in its parts. -/
structure TypeName where
  /-- The dotted namespace, empty for the global one. -/
  namespaceName : String
  /-- The containing types, outermost first. -/
  containing : List String
  name : String
deriving DecidableEq, Repr

namespace TypeName

/-- The segments of the namespace. -/
def segments (n : TypeName) : List String := namespaceSegments n.namespaceName

/-- The names of the types, outermost first. -/
def path (n : TypeName) : List String := n.containing ++ [n.name]

/-- A namespace and the names of types, outermost first, in one text. -/
def join (namespaceName : String) (path : List String) : String :=
  let types := "+".intercalate path
  if namespaceName.isEmpty then types else namespaceName ++ "." ++ types

/-- The full name. -/
def full (n : TypeName) : String := join n.namespaceName n.path

/-- The name of a namespace and of types, outermost first. -/
def ofPath (namespaceName : String) (path : List String) : TypeName :=
  ⟨namespaceName, path.dropLast, path.getLastD ""⟩

/-- The parts of a full name. -/
def ofFull (s : String) : TypeName :=
  let chars := s.toList
  let outer := chars.takeWhile (· ≠ '+')
  let rest := chars.dropWhile (· ≠ '+')
  let (namespaceName, first) := (Text.splitLast? '.' outer).getD ([], outer)
  ofPath (String.ofList namespaceName) (((first ++ rest).splitOn '+').map String.ofList)

end TypeName

namespace QualifiedName

/-- The depth of brackets after a character. A closing bracket without an opening one is passed
over. -/
def depthAfter (depth : Nat) (c : Char) : Nat :=
  if c = '[' then depth + 1 else if c = ']' then depth - 1 else depth

/-- The characters before the first comma outside brackets, from a depth of brackets on. -/
def beforeComma : (depth : Nat) → List Char → List Char
  | _, [] => []
  | depth, c :: cs =>
    if c = ',' ∧ depth = 0 then [] else c :: beforeComma (depthAfter depth c) cs

/-- The name without the assembly and without blanks at the end. -/
def stripAssembly (name : String) : String :=
  String.ofList ((beforeComma 0 name.toList).toArray.popWhile Text.isBlank).toList

end QualifiedName
end MethodAtlas
