import MethodAtlas.Resolution.Declaring
import MethodAtlas.Resolution.StateMachine

/-!
# Sessions

A session answers where the source of methods lies. It asks the symbols of the reported method
first, then those of the method in the generated type, then those of the method in the type that
declares it. Symbols and modules are opened once and kept until the session is closed.
-/
namespace MethodAtlas

/-- A place in a source file. -/
structure SourceLocation where
  file : String
  line : Nat
deriving DecidableEq, Repr

/-- The symbols of a module, which answer for a type and a method. -/
structure Symbols where
  /-- The path that they were opened for. -/
  path : String
  locate : String → String → Option SourceLocation

/-- What opening symbols finds: `provider n path` is the outcome of the `n`-th opening, were it
for `path`. -/
abbrev SymbolProvider := Nat → String → Option Symbols

/-- What a session asks its provider and the symbols for. -/
inductive SymbolCall
  | openSymbols (path : String)
  | locate (path typeName methodName : String)
deriving DecidableEq, Repr

/-- What a session keeps. -/
structure Session where
  config : Config
  /-- The symbols by the paths that they were asked for; none where they could not be opened. -/
  symbols : List (PathKey × Option Symbols)
  modules : ModuleStore
  /-- The number of times that the provider was asked to open symbols. -/
  openings : Nat
  /-- All calls so far, the latest first. -/
  calls : List SymbolCall

namespace Session

/-- A session that has opened nothing. -/
def new (config : Config) : Session := ⟨config, [], .empty, 0, []⟩

/-- A session forgets everything that it has opened. -/
def close (s : Session) : Session := { s with symbols := [], modules := s.modules.clear }

def record (call : SymbolCall) (s : Session) : Session := { s with calls := call :: s.calls }

/-- The symbols of a module, which are opened if they have not been asked for before. -/
def symbolsOf (provider : SymbolProvider) (path : String) : StateM Session (Option Symbols) :=
  fun s =>
    match s.symbols.lookup (PathKey.ofPath path) with
    | some known => (known, s)
    | none =>
      let opened := provider s.openings path
      (opened, { s with
        symbols := (PathKey.ofPath path, opened) :: s.symbols
        openings := s.openings + 1
        calls := .openSymbols path :: s.calls })

/-- The place that the symbols tell for a method. A place without a file is none. -/
def symbolLocation (provider : SymbolProvider) (t : Target) :
    StateM Session (Option SourceLocation) := do
  match ← symbolsOf provider t.path with
  | none => pure none
  | some symbols =>
    modify (record (.locate symbols.path t.typeName t.methodName))
    pure ((symbols.locate t.typeName t.methodName).filter fun l => !l.file.isEmpty)

/-- The outcome of a query of the session's modules. -/
def query {α : Type} (q : Query α) : StateM Session (Except Fault α) := fun s =>
  let (outcome, modules) := q.run.run s.modules
  (outcome, { s with modules })

/-- The place of a method that a query names, if the query is wanted and names one. A failed query
names none. -/
def fallback (provider : SymbolProvider) (wanted : Config → Bool)
    (q : Config → Query (Option Target)) : StateM Session (Option SourceLocation) := do
  let config := (← get).config
  if wanted config then
    match ← query (q config) with
    | .ok (some target) => symbolLocation provider target
    | .ok none | .error _ => pure none
  else pure none

/-- The first place that one of some lookups finds. -/
def firstOf : List (StateM Session (Option SourceLocation)) →
    StateM Session (Option SourceLocation)
  | [] => pure none
  | lookup :: rest => do
    match ← lookup with
    | some location => pure (some location)
    | none => firstOf rest

/-- Where the source of a method lies that was reported on a type of a module. -/
def locate (disk : Disk) (provider : SymbolProvider) (path typeName methodName : String) :
    StateM Session (Option SourceLocation) :=
  firstOf [
    symbolLocation provider ⟨path, typeName, methodName⟩,
    fallback provider (·.stateMachines) fun config =>
      findStateMachine disk config path typeName methodName,
    fallback provider (·.declaringTypes) fun config =>
      findDeclaringType disk config path typeName methodName]

end Session
end MethodAtlas
