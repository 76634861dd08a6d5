import MethodAtlas.Module.Basic

/-!
# Names of types

The full name of a type is put together from the type outwards. A type of the module follows the
types that enclose it, a type of another module the types that its scope leads through. Both
chains end after at most as many steps as the table has rows, or else they never would. `Climb` is
what the two have in common. Their walks leave open what reads the rows, which is the reader of the
module and in its place one that notes what it is asked for.
-/
namespace MethodAtlas

/-- A chain of types: the namespace of the outermost, and the names, outermost first. -/
structure TypePath where
  namespaceName : String
  names : List String
deriving DecidableEq, Repr

namespace TypePath

/-- The full name of the innermost type. -/
def full (p : TypePath) : String := TypeName.join p.namespaceName p.names

/-- The parts of the full name. -/
def toTypeName (p : TypePath) : TypeName := TypeName.ofPath p.namespaceName p.names

end TypePath

/-- What a walk along a chain of types reads in a row: the name of the type, the row that it leads
on to, and what the chain ends in where it leads on to none. -/
structure Climb (R ρ : Type) where
  name : R → Except Fault String
  further : Nat → R → Option Nat
  last : R → Except Fault ρ

/-- The walk from `current` on, after the names `inner`, with `left` steps left to take. It answers
what the chain ends in, and the names from there back to the first. -/
def Climb.walk {R ρ : Type} {M : Type → Type} [Monad M] [MonadExcept Fault M] (c : Climb R ρ)
    (read : Nat → M R) (cycle : Fault) :
    (left current : Nat) → (inner : List String) → M (ρ × List String)
  | left, current, inner => do
    let row ← read current
    let name ← MonadExcept.ofExcept (c.name row)
    match c.further current row with
    | none =>
      let last ← MonadExcept.ofExcept (c.last row)
      pure (last, name :: inner)
    | some outer =>
      match left with
      | 0 => throw cycle
      | left + 1 => walk c read cycle left outer (name :: inner)

/-- The reference that the scope of a reference is, if it is one. -/
def TypeReference.outer? (r : TypeReference) : Option Nat :=
  if r.scope.table = .typeRef ∧ ¬ r.scope.isNull then some r.scope.row else none

namespace Module
variable (m : Module)

/-- What the walk along the types around a type reads, and the namespace that it ends in. -/
def enclosings : Climb (Row TypeDefinition) String where
  name row := m.string row.record.name
  further rid _ := m.enclosing? rid
  last row := m.string row.record.namespaceName

/-- What the walk along the scopes of a reference reads, and the namespace and the scope that it
ends in. -/
def scopes : Climb (Row TypeReference) (String × CodedIndex) where
  name row := m.string row.record.name
  further _ row := row.record.outer?
  last row := do
    let ns ← m.string row.record.namespaceName
    pure (ns, row.record.scope)

section Walks
variable {M : Type → Type} [Monad M] [MonadExcept Fault M]

/-- The types around a type of the module, and the type itself, from the rows that are read. -/
def typePathBy (read : Nat → M (Row TypeDefinition)) (rid : Nat) : M TypePath := do
  let (ns, names) ←
    m.enclosings.walk read (.malformed (.nestingCycle rid)) (m.rowCount .typeDef) rid []
  pure ⟨ns, names⟩

/-- The full name of a type of the module, from the rows that are read. -/
def typeFullNameBy (read : Nat → M (Row TypeDefinition)) (rid : Nat) : M String := do
  let path ← m.typePathBy read rid
  pure path.full

/-- The types around a type of another module, and the type itself, with the scope of the
outermost, from the rows that are read. -/
def referencePathBy (read : Nat → M (Row TypeReference)) (rid : Nat) :
    M (TypePath × CodedIndex) := do
  let ((ns, scope), names) ←
    m.scopes.walk read (.malformed (.scopeCycle rid)) (m.rowCount .typeRef) rid []
  pure (⟨ns, names⟩, scope)

end Walks

/-- The types around a type of the module, and the type itself. -/
def typePath (rid : Nat) : Except Fault TypePath := m.typePathBy (m.needRow TypeDefinition) rid

/-- The full name of a type of the module. -/
def typeFullName (rid : Nat) : Except Fault String :=
  m.typeFullNameBy (m.needRow TypeDefinition) rid

/-- The types around a type of another module, and the type itself, with the scope of the
outermost. -/
def referencePath (rid : Nat) : Except Fault (TypePath × CodedIndex) :=
  m.referencePathBy (m.needRow TypeReference) rid

/-- The full name of a type of another module. -/
def referenceFullName (rid : Nat) : Except Fault String := do
  let (path, _) ← m.referencePath rid
  pure path.full

end Module
end MethodAtlas
