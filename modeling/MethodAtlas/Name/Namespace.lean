import MethodAtlas.Text.Basic

/-!
# Namespaces

The namespaces of a module form a tree below the global namespace, one level for each segment
between dots. Nodes are numbered in the order in which they are first needed, and each lists the
nodes below it and the types declared in it.
-/
namespace MethodAtlas

/-- The segments of a dotted namespace; the global namespace has none. -/
def namespaceSegments (s : String) : List String :=
  if s.isEmpty then [] else Text.split '.' s

/-- A namespace: its last segment, the namespaces that lie in it and the types declared in it. -/
structure NamespaceNode where
  name : String
  children : Array Nat
  types : Array Nat
deriving DecidableEq, Repr

/-- The namespaces of a module. -/
structure NamespaceTree where
  nodes : Array NamespaceNode
deriving DecidableEq, Repr

namespace NamespaceTree

/-- The number of the global namespace. -/
def root : Nat := 0

/-- The tree with no other than the global namespace. -/
def empty : NamespaceTree := ⟨#[⟨"", #[], #[]⟩]⟩

/-- The number of namespaces. -/
def size (t : NamespaceTree) : Nat := t.nodes.size

/-- The last segment of a namespace. -/
def name (t : NamespaceTree) (node : Nat) : String := (t.nodes[node]?.map (·.name)).getD ""

/-- The namespaces that lie in a namespace, in the order in which they were needed. -/
def children (t : NamespaceTree) (node : Nat) : List Nat :=
  (t.nodes[node]?.map (·.children.toList)).getD []

/-- The types declared in a namespace, in the order in which they were inserted. -/
def types (t : NamespaceTree) (node : Nat) : List Nat :=
  (t.nodes[node]?.map (·.types.toList)).getD []

/-- The namespace of exactly this segment in a namespace. -/
def child? (t : NamespaceTree) (node : Nat) (segment : String) : Option Nat :=
  (t.children node).find? fun child => t.nodes[child]?.any (·.name == segment)

/-- One namespace more, which lies in `node`. -/
def grow (t : NamespaceTree) (node : Nat) (segment : String) : NamespaceTree :=
  ⟨(t.nodes.push ⟨segment, #[], #[]⟩).modify node fun n =>
    { n with children := n.children.push t.size }⟩

/-- The namespace of a segment in a namespace, which is added where it is missing. -/
def enter (t : NamespaceTree) (node : Nat) (segment : String) : NamespaceTree × Nat :=
  match t.child? node segment with
  | some found => (t, found)
  | none => (t.grow node segment, t.size)

/-- The namespace at the end of a path of segments; what is missing is added. -/
def reach (t : NamespaceTree) (node : Nat) (segments : List String) : NamespaceTree × Nat :=
  segments.foldl (fun (t, node) segment => t.enter node segment) (t, node)

/-- Declares a type in a node. -/
def declare (t : NamespaceTree) (node rid : Nat) : NamespaceTree :=
  ⟨t.nodes.modify node fun n => { n with types := n.types.push rid }⟩

/-- Declares a type in a dotted namespace. -/
def insert (t : NamespaceTree) (namespaceName : String) (rid : Nat) : NamespaceTree :=
  let (t, node) := t.reach root (namespaceSegments namespaceName)
  t.declare node rid

/-- The namespace at the end of a path of segments, if the tree has it. -/
def find? (t : NamespaceTree) (node : Nat) (segments : List String) : Option Nat :=
  segments.foldlM t.child? node

end NamespaceTree
end MethodAtlas
