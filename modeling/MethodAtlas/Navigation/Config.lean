/-!
# Configuration

Which ways a method is looked for, how far, and whether events of the search are recorded.
-/
namespace MethodAtlas

/-- How methods are looked for. -/
structure Config where
  /-- The extensions of module files, in the order in which they are tried. -/
  extensions : List String
  /-- The method of a generated type that holds the code of the method it was generated for. -/
  stateMachineMethod : String
  /-- Whether generated types are looked at. -/
  stateMachines : Bool
  /-- Whether the base types are looked at. -/
  declaringTypes : Bool
  /-- How many base types are looked at. -/
  depthLimit : Nat
  /-- Whether events of the lowest level are recorded. One of them holds a full name, which is read
  for it. -/
  debugEvents : Bool
deriving DecidableEq, Repr

namespace Config

/-- The usual configuration. -/
def standard : Config where
  extensions := ["dll", "exe"]
  stateMachineMethod := "MoveNext"
  stateMachines := true
  declaringTypes := true
  depthLimit := 64
  debugEvents := false

/-- The configuration that looks at symbols only. -/
def directOnly : Config := { standard with stateMachines := false, declaringTypes := false }

instance : Inhabited Config := ⟨standard⟩

end Config

/-- A method to be looked up in the symbols of a module. -/
structure Target where
  path : String
  typeName : String
  methodName : String
deriving DecidableEq, Repr

end MethodAtlas
