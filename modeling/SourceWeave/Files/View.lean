import SourceWeave.Error
import SourceWeave.Glob.Match
import SourceWeave.Glob.Reader
import SourceWeave.Note
import SourceWeave.Path.Basic

/-!
# Views of a file store

A run sees files only through three questions: is there a file under a path, what are its lines, and
which files below a directory have a name that matches a glob. A store may have something to note
when it is searched for files.
-/

namespace SourceWeave

/-- What a run can ask a file store. -/
structure FileView where
  /-- Tells whether a path names a file. -/
  isFile : Path → Bool
  /-- The lines of a file. -/
  readLines : Path → Except Error (List String)
  /-- The files at or below a directory whose name matches a glob, in ascending order. -/
  list : Path → String → Except Error (List Path)
  /-- What is noted when the files below a directory are listed. -/
  listNotes : Path → List Note := fun _ => []

/-- Reads the glob that file names are matched against. -/
def readPattern (pattern : String) : Except Error (List Glob.Token) :=
  match Glob.read pattern with
  | .ok glob => .ok glob
  | .error fault => .error (.invalidPattern pattern fault)

/-- Tells whether the file name of a path matches a glob. -/
def Path.nameMatches (path : Path) (glob : List Glob.Token) : Bool :=
  match path.fileName? with
  | some name => Glob.isMatch glob name
  | none => false

end SourceWeave
