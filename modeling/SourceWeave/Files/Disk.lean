import SourceWeave.Files.View
import SourceWeave.Text.Lines
import Std.Data.TreeMap

/-!
# Files on a disk

A disk is a tree of directories and files. A path is followed piece by piece from the root or from a
working directory: an empty piece and a dot stay, two dots go one directory up, and each piece must
start in a directory. So a slash behind the name of a file makes the path name nothing.
-/

namespace SourceWeave

/-- What stands at a place of the tree. -/
inductive DiskNode where
  /-- A directory. -/
  | directory
  /-- A file with its bytes. -/
  | file (bytes : ByteArray)

/-- A disk and the working directory from which relative paths are followed. -/
structure Disk where
  /-- What stands at each place below the root, by the names that lead there. -/
  nodes : Std.TreeMap (List String) DiskNode
  /-- The names that lead to the working directory. -/
  workingDirectory : List String

namespace Disk

/-- A disk with nothing but its root. -/
def empty : Disk := ⟨{}, []⟩

/-- What stands at the end of a list of names. The root is a directory. -/
def node? (disk : Disk) (place : List String) : Option DiskNode :=
  if place.isEmpty then some .directory else disk.nodes[place]?

/-- The longest name that the disk allows, in bytes. -/
def nameLimit : Nat := 255

/-- The longest path that the disk allows, in bytes. -/
def pathLimit : Nat := 4095

/-- Goes one piece of a path further. -/
def step (disk : Disk) (place : List String) (piece : List Char) : Except FileFault (List String) :=
  match disk.node? place with
  | none => .error .notFound
  | some (.file _) => .error .notDirectory
  | some .directory =>
    match piece with
    | [] => .ok place
    | ['.'] => .ok place
    | ['.', '.'] => .ok place.dropLast
    | _ =>
      let name := String.ofList piece
      if nameLimit < name.utf8ByteSize then .error .nameTooLong else .ok (place ++ [name])

/-- Where the way of a path starts. -/
def start (disk : Disk) (path : Path) : List String :=
  if path.isAbsolute then [] else disk.workingDirectory

/-- Checks that a path can be followed at all. -/
def checkPath (path : Path) : Except FileFault Unit :=
  if path.text.toList.contains '\x00' then .error .invalidPath
  else if path.text.isEmpty then .error .notFound
  else if pathLimit < path.text.utf8ByteSize then .error .nameTooLong
  else .ok ()

/-- The place that a path leads to. What stands at its end need not exist. -/
def locate (disk : Disk) (path : Path) : Except FileFault (List String) := do
  checkPath path
  (Path.pieces path.text.toList).foldlM disk.step (disk.start path)

/-- The place that a path leads to and what stands there. -/
def find (disk : Disk) (path : Path) : Except FileFault (List String × DiskNode) :=
  match disk.locate path with
  | .error fault => .error fault
  | .ok place =>
    match disk.node? place with
    | some node => .ok (place, node)
    | none => .error .notFound

/-- Tells whether a path names a file. -/
def isFile (disk : Disk) (path : Path) : Bool :=
  match disk.find path with
  | .ok (_, .file _) => true
  | _ => false

/-- The text of a file. -/
def readText (disk : Disk) (path : Path) : Except FileFault String :=
  match disk.find path with
  | .error fault => .error fault
  | .ok (_, .directory) => .error .isDirectory
  | .ok (_, .file bytes) =>
    match String.fromUTF8? bytes with
    | some text => .ok text
    | none => .error .notText

/-- The lines of a file. -/
def readLines (disk : Disk) (path : Path) : Except Error (List String) :=
  match disk.readText path with
  | .ok text => .ok (Text.splitLines text)
  | .error fault => .error (.file fault)

/-- The files below a place: the names that lead to each from there, in ascending order. -/
def filesBelow (disk : Disk) (place : List String) : List (List String) :=
  disk.nodes.toList.filterMap fun (names, node) =>
    match node with
    | .file _ => if place.isPrefixOf names then some (names.drop place.length) else none
    | .directory => none

/-- The files below a directory whose name matches a glob. Their paths begin with the directory as
it is written. A directory that does not exist holds nothing. -/
def list (disk : Disk) (directory : Path) (pattern : String) : Except Error (List Path) :=
  match readPattern pattern with
  | .error e => .error e
  | .ok glob =>
    match disk.find directory with
    | .ok (place, .directory) =>
      let paths := (disk.filesBelow place).map fun names =>
        names.foldl (fun path name => path.join ⟨name⟩) directory
      .ok (paths.filter (·.nameMatches glob))
    | _ => .ok []

/-- The path of the working directory. -/
def workingPath (disk : Disk) : Path :=
  ⟨"/" ++ "/".intercalate disk.workingDirectory⟩

/-- What is noted when the files below a directory are listed, if there is such a directory. -/
def listNotes (disk : Disk) (directory : Path) : List Note :=
  match disk.find directory with
  | .ok (_, .directory) =>
    [⟨.trace, "automatically discovered CWD: " ++ disk.workingPath.text, []⟩]
  | _ => []

/-- The disk as a run sees it. -/
def view (disk : Disk) : FileView where
  isFile := disk.isFile
  readLines := disk.readLines
  list := disk.list

/-- The disk as a run sees it, with a note of each search for files. -/
def notedView (disk : Disk) : FileView :=
  { disk.view with listNotes := disk.listNotes }

/-- Makes the directory at the end of a list of names, and all that lead to it. -/
def makeDirectories (disk : Disk) (place : List String) : Disk :=
  let add (disk : Disk) (count : Nat) : Disk :=
    let names := place.take (count + 1)
    match disk.node? names with
    | some _ => disk
    | none => { disk with nodes := disk.nodes.insert names .directory }
  (List.range place.length).foldl add disk

/-- Puts a file at the end of a list of names, and makes the directories that lead to it. -/
def putFile (disk : Disk) (place : List String) (bytes : ByteArray) : Disk :=
  let disk := disk.makeDirectories place.dropLast
  { disk with nodes := disk.nodes.insert place (.file bytes) }

/-- The place of a file that is to be written. The directory must exist. A path that ends in a slash
names a directory, whether it exists or not. -/
def locateForWriting (disk : Disk) (path : Path) : Except FileFault (List String) := do
  checkPath path
  let pieces := Path.pieces path.text.toList
  match pieces.reverse.dropWhile (·.isEmpty) with
  | [] => throw .isDirectory
  | last :: others =>
    let directory ← others.reverse.foldlM disk.step (disk.start path)
    if others.length + 1 < pieces.length then
      discard (disk.step directory [])
      throw .isDirectory
    else disk.step directory last

/-- Writes a text to the file under a path, in place of what the file held. -/
def writeText (disk : Disk) (path : Path) (text : String) : Except FileFault Disk := do
  let place ← disk.locateForWriting path
  match disk.node? place with
  | some .directory => throw .isDirectory
  | _ => return { disk with nodes := disk.nodes.insert place (.file text.toUTF8) }

end Disk

end SourceWeave
