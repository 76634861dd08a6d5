import MethodAtlas.Module.Basic

/-!
# Methods and parameters

A type owns a run of methods and a method a run of parameters. A run starts where its owner says
and ends where that of the next row starts. In an edited module the methods are listed in a table
of their own, and runs are runs of that list.
-/
namespace MethodAtlas.Module
variable (m : Module)

/-- The places from `start` up to `stop`, of a list that has `length` places from one on. -/
def places (start stop length : Nat) : List Nat :=
  let stop := min stop (length + 1)
  if start = 0 then [] else List.range' start (stop - start)

/-- The methods of a type, in their order. -/
def methods (t : Row TypeDefinition) : List (Row MethodDefinition) :=
  match m.table MethodDefinition with
  | none => []
  | some methods =>
    let next := m.row TypeDefinition (t.rid + 1)
    match m.table MethodPointer with
    | none =>
      let stop := (next.map (·.record.methodList)).getD (methods.rowCount + 1)
      (places t.record.methodList stop methods.rowCount).filterMap methods.get
    | some pointers =>
      let stop := (next.map (·.record.methodList)).getD (pointers.rowCount + 1)
      (places t.record.methodList stop pointers.rowCount).filterMap fun place => do
        let pointer ← pointers.get place
        methods.get pointer.record.method

/-- The parameters of a method, in their order. -/
def parameters (d : Row MethodDefinition) : List (Row Parameter) :=
  match m.table Parameter with
  | none => []
  | some parameters =>
    let next := m.row MethodDefinition (d.rid + 1)
    let stop := (next.map (·.record.paramList)).getD (parameters.rowCount + 1)
    (places d.record.paramList stop parameters.rowCount).filterMap parameters.get

/-- The place of a method in the list that types own runs of. -/
def methodPlace? (rid : Nat) : Option Nat :=
  match m.table MethodPointer with
  | none => some rid
  | some pointers => (pointers.toList.find? fun p => p.record.method == rid).map (·.rid)

/-- The type that owns a method: the last whose run starts at or before the method's place. -/
def methodOwner? (rid : Nat) : Option (Row TypeDefinition) := do
  let place ← m.methodPlace? rid
  let types ← m.table TypeDefinition
  let owner ← (types.toList.filter fun t =>
    t.record.methodList != 0 && t.record.methodList ≤ place).getLast?
  if (m.methods owner).any fun d => d.rid == rid then some owner else none

/-- The public methods of a type that have exactly this name. -/
def publicMethodsNamed (t : Row TypeDefinition) (name : String) :
    Except Fault (List (Row MethodDefinition)) := do
  let named ← ((m.methods t).filter (·.record.isPublic)).filterM fun d => do
    let found ← m.string d.record.name
    pure (found == name)
  pure named

end MethodAtlas.Module
