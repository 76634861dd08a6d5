import MethodAtlas.Fault
import MethodAtlas.Files.Path

/-!
# File trees

A directory with everything in it. A path leads from place to place, down by a name and up by `..`.
Opening it follows its components: a missing one is told apart from one that is no directory or
whose name is too long.
-/
namespace MethodAtlas

/-- A file with its contents, or a directory. -/
inductive FileEntry
  | file (bytes : ByteArray)
  | directory

/-- The entries below a directory, each with the names that lead to it. -/
structure FileTree where
  entries : List (List String × FileEntry)

namespace FileTree

def empty : FileTree := ⟨[]⟩

/-- The most bytes that a name can have. -/
def nameLimit : Nat := 255

/-- The number of bytes from which a path is too long. -/
def pathLimit : Nat := 4096

/-- The names that lead nowhere below a directory: those of the directory above and of all files. -/
def isBase (name : String) : Bool := name == ".." || name == "/"

/-- The entry at a place, which is the list of the names that lead there. -/
def entry? (t : FileTree) (place : List String) : Option FileEntry :=
  if place.all isBase then some .directory else t.entries.lookup place

def setEntry (t : FileTree) (place : List String) (e : FileEntry) : FileTree :=
  ⟨(place, e) :: t.entries.filter fun (other, _) => other != place⟩

/-- The place that a path starts from: the tree, or the directory of all files. -/
def start (path : String) : List String := if Path.isAbsolute path then ["/"] else []

/-- The place above a place. Above the tree `..` is one more name, and nothing lies above the
directory of all files. -/
def above (place : List String) : List String :=
  match place.getLast? with
  | none | some ".." => place ++ [".."]
  | some "/" => place
  | some _ => place.dropLast

/-- The place that a component of a path leads to. -/
def next (place : List String) (component : String) : List String :=
  if Path.isBlank component then place
  else if component = ".." then above place
  else place ++ [component]

/-- The place that a path leads to. -/
def placeOf (path : String) : List String := (Text.split '/' path).foldl next (start path)

/-- Makes a directory of each place on a way that has no entry. -/
def addDirectories (t : FileTree) (place : List String) : List String → FileTree
  | [] => t
  | component :: rest =>
    let place := next place component
    if (t.entry? place).isSome then t.addDirectories place rest
    else (t.setEntry place .directory).addDirectories place rest

/-- Puts a file or a directory at a path, and directories at the places on the way. -/
def insert (t : FileTree) (path : String) (e : FileEntry) : FileTree :=
  (t.addDirectories (start path) (Text.split '/' path)).setEntry (placeOf path) e

/-- Takes away what lies at a path, with all that lies below. -/
def erase (t : FileTree) (path : String) : FileTree :=
  ⟨t.entries.filter fun (other, _) => !(placeOf path).isPrefixOf other⟩

/-- A step to the next component of a path. Only directories can be left, also for the place
above. -/
def step (t : FileTree) (place : List String) (component : String) : Except Fault (List String) :=
  match t.entry? place with
  | none => .error (.fileUnreadable true)
  | some (.file _) => .error (.fileUnreadable false)
  | some .directory =>
    if nameLimit < component.utf8ByteSize then .error (.fileUnreadable false)
    else .ok (next place component)

/-- The bytes of the file at a path. -/
def read (t : FileTree) (path : String) : Except Fault ByteArray :=
  if path.isEmpty then .error (.fileUnreadable true)
  else if pathLimit ≤ path.utf8ByteSize || path.toList.contains '\x00' then
    .error (.fileUnreadable false)
  else do
    let place ← (Text.split '/' path).foldlM t.step (start path)
    match t.entry? place with
    | none => .error (.fileUnreadable true)
    | some (.file bytes) => .ok bytes
    | some .directory => .error .fileUnmappable

end FileTree
end MethodAtlas
