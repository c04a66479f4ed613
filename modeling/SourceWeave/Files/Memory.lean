import SourceWeave.Files.View
import SourceWeave.Text.Lines
import Std.Data.TreeMap

/-!
# Files held in memory

A store that maps paths to texts. Paths with the same components name the same file; the store keeps
the spelling under which a file was first put in.
-/

namespace SourceWeave

/-- A file held in memory. -/
structure MemoryFile where
  /-- The path under which the file was first put in. -/
  path : Path
  /-- The text of the file. -/
  content : String
deriving DecidableEq, Repr

/-- Files held in memory. -/
structure MemoryFiles where
  /-- The files by the components of their paths. -/
  files : Std.TreeMap (List Path.Component) MemoryFile

namespace MemoryFiles

/-- No files. -/
def empty : MemoryFiles := ⟨{}⟩

/-- The file under a path. -/
def get? (store : MemoryFiles) (path : Path) : Option MemoryFile :=
  store.files[path.components]?

/-- Puts a file in. An earlier file under the path loses its text and keeps its spelling. -/
def insert (store : MemoryFiles) (path : Path) (content : String) : MemoryFiles :=
  let spelling := ((store.get? path).map (·.path)).getD path
  ⟨store.files.insert path.components ⟨spelling, content⟩⟩

/-- Puts files in, one after another. -/
def ofList (files : List (Path × String)) : MemoryFiles :=
  files.foldl (fun store (path, content) => store.insert path content) empty

/-- The files, in the order of their paths. -/
def toList (store : MemoryFiles) : List MemoryFile :=
  store.files.toList.map (·.2)

/-- The lines of a file. -/
def readLines (store : MemoryFiles) (path : Path) : Except Error (List String) :=
  match store.get? path with
  | some file => .ok (Text.splitLines file.content)
  | none => .error (.file (.notInMemory path))

/-- The files at or below a directory whose name matches a glob. -/
def list (store : MemoryFiles) (directory : Path) (pattern : String) : Except Error (List Path) :=
  match readPattern pattern with
  | .error e => .error e
  | .ok glob =>
    .ok ((store.toList.map (·.path)).filter fun path =>
      path.startsWith directory && path.nameMatches glob)

/-- The store as a run sees it. -/
def view (store : MemoryFiles) : FileView where
  isFile path := (store.get? path).isSome
  readLines := store.readLines
  list := store.list

end MemoryFiles

end SourceWeave
