import SourceWeave.Path.Basic

/-!
# The normal form of a path

A path is made absolute against a working directory and its components are folded into a stack of
names: a `.` is passed over, a `..` takes the top name off and does nothing at the root. The key of
a path is its text with every backslash turned into a slash.
-/

namespace SourceWeave.Path

/-- A path with neither `.` nor `..`: whether it begins at the root, and its names. -/
structure Folded where
  /-- Whether the path begins at the root. -/
  rooted : Bool
  /-- The names, the last one first. -/
  stack : List String
deriving DecidableEq, Repr

namespace Folded

/-- The empty relative path. -/
def empty : Folded := ⟨false, []⟩

/-- Follows one more component. -/
def follow (folded : Folded) : Component → Folded
  | .root => ⟨true, []⟩
  | .current => folded
  | .parent => { folded with stack := folded.stack.drop 1 }
  | .name text => { folded with stack := text :: folded.stack }

/-- The text of a folded path. -/
def text (folded : Folded) : String :=
  (if folded.rooted then "/" else "") ++ "/".intercalate folded.stack.reverse

end Folded

/-- The folded form of a list of components. -/
def foldComponents (components : List Component) : Folded :=
  components.foldl Folded.follow Folded.empty

/-- The path seen from the working directory `cwd`. -/
def absoluteFrom (path cwd : Path) : Path :=
  if path.isAbsolute then path else cwd.join path

/-- The normal form of `path`, seen from the working directory `cwd`. -/
def normalize (path cwd : Path) : Path :=
  ⟨(foldComponents (path.absoluteFrom cwd).components).text⟩

/-- The key of a path: its text, with every backslash turned into a slash. -/
def key (path : Path) : String :=
  path.text.map fun c => if c = '\\' then '/' else c

end SourceWeave.Path
