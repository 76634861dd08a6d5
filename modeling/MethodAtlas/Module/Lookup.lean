import MethodAtlas.Module.Basic

/-!
# Finding types by name

A type is looked up by the segments of its namespace, then by the names of the types around it,
then by its own name. Names match exactly, and of several types of one name the first is found.
-/
namespace MethodAtlas.Module
variable (m : Module)

/-- The first of these types that has a name. -/
def findNamed (name : String) : List Nat → Except Fault (Option Nat)
  | [] => .ok none
  | rid :: rids => do
    let row ← m.needRow TypeDefinition rid
    let found ← m.string row.record.name
    if found = name then pure (some rid) else findNamed name rids

/-- The type at the end of a path of names that starts among these types. -/
def findPath : (candidates : List Nat) → (containing : List String) → (name : String) →
    Except Fault (Option Nat)
  | candidates, [], name => m.findNamed name candidates
  | candidates, outer :: containing, name => do
    match ← m.findNamed outer candidates with
    | none => pure none
    | some rid => findPath (m.nestedTypes rid) containing name

/-- The type of a name, if the module has it. -/
def findType (n : TypeName) : Except Fault (Option Nat) :=
  match m.namespaces.find? NamespaceTree.root n.segments with
  | none => .ok none
  | some node => m.findPath (m.namespaces.types node) n.containing n.name

/-- The type of a full name, if the module has it. -/
def findFull (name : String) : Except Fault (Option Nat) := m.findType (TypeName.ofFull name)

end MethodAtlas.Module
