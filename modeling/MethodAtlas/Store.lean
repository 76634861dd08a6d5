import MethodAtlas.Files.Path
import MethodAtlas.Module.Basic

/-!
# The module store

A store opens each module once. The first outcome for a path is final until the store is cleared:
a module is shared by all later requests, and a failure is repeated without a look at the file.
Paths that are equal in lower case count as one.
-/
namespace MethodAtlas

/-- What opening files finds: `disk n path` is the outcome of the `n`-th opening, were it to open
`path`, an image or why there is none. So what a path leads to can change from one opening to the
next. -/
abbrev Disk := Nat → String → Except Fault Image

/-- Files that do not change. -/
def Disk.constant (read : String → Except Fault Image) : Disk := fun _ path => read path

/-- A module as it was when it was opened. -/
structure OpenModule where
  /-- The number of the opening, which tells modules apart. -/
  serial : Nat
  module : Module

/-- The first outcome for a path. -/
inductive StoreEntry
  | opened (m : OpenModule)
  | failed ( notFound : Bool)

namespace StoreEntry

/-- The entry that an outcome leaves behind. -/
def ofOutcome : Except Fault OpenModule → StoreEntry
  | .ok m => opened m
  | .error e => failed e.isNotFound

/-- What a later request for a path is answered. -/
def answer (path : String) : StoreEntry → Except Fault OpenModule
  | opened m => .ok m
  | failed notFound => .error (.moduleUnavailable path notFound)

end StoreEntry

/-- The modules that have been asked for. -/
structure ModuleStore where
  entries : List (PathKey × StoreEntry)
  /-- The number of files opened so far, those before the store was cleared included. -/
  openings : Nat

namespace ModuleStore

def empty : ModuleStore := ⟨[], 0⟩

/-- The outcome that is kept for a path. -/
def find? (s : ModuleStore) (path : String) : Option StoreEntry :=
  s.entries.lookup (PathKey.ofPath path)

/-- Whether a path has been asked for. -/
def contains (s : ModuleStore) (path : String) : Bool := (s.find? path).isSome

/-- The number of paths that have been asked for. -/
def size (s : ModuleStore) : Nat := s.entries.length

/-- Forgets all modules and failures. -/
def clear (s : ModuleStore) : ModuleStore := ⟨[], s.openings⟩

/-- Opens the module at a path, whatever the store holds. -/
def load (disk : Disk) (path : String) (s : ModuleStore) : Except Fault OpenModule := do
  let image ← disk s.openings path
  let module ← Module.ofImage image
  pure ⟨s.openings, module⟩

/-- The module at a path, which is opened if it has not been asked for before. -/
def request (disk : Disk) (path : String) (s : ModuleStore) :
    Except Fault OpenModule × ModuleStore :=
  match s.find? path with
  | some entry => (entry.answer path, s)
  | none =>
    let outcome := load disk path s
    (outcome, ⟨(PathKey.ofPath path, .ofOutcome outcome) :: s.entries, s.openings + 1⟩)

end ModuleStore

/-- A computation that asks a store for modules and can fail. The store keeps what was opened
before a failure. -/
abbrev Query (α : Type) := ExceptT Fault (StateM ModuleStore) α

namespace Query

/-- The module at a path. -/
def module (disk : Disk) (path : String) : Query OpenModule :=
  ExceptT.mk (ModuleStore.request disk path)

/-- The outcome of a computation, which cannot fail then. -/
def attempt {α : Type} (q : Query α) : Query (Except Fault α) := ExceptT.lift q.run

/-- An outcome that asks for no modules. -/
def ofExcept {α : Type} (r : Except Fault α) : Query α := ExceptT.mk (pure r)

end Query
end MethodAtlas
