import SourceWeave.Resolution
import SourceWeave.Text.Lines

/-!
# Scripts

A script is a source text with the key that tells it apart, the path it was read from, and its lines
as they were read.
-/

namespace SourceWeave

/-- A source text that takes part in a run. -/
structure Script where
  /-- The key that tells the script apart. -/
  key : String
  /-- Where the script was read from. -/
  path : Path
  /-- The lines as they were read. -/
  rawLines : List String
  /-- How the reference to the script was resolved. -/
  resolution : Resolution
  /-- What stands between the lines when they are put together. -/
  separator : String

namespace Script

/-- The script that a resolved reference leads to. -/
def ofResolution? (separator : String) (rawLines : List String) (resolution : Resolution) :
    Option Script :=
  match resolution.key?, resolution.path? with
  | some key, some path => some ⟨key, path, rawLines, resolution, separator⟩
  | _, _ => none

/-- The directory that references in the script are written in. -/
def directory (script : Script) : Path :=
  script.path.parent?.getD ⟨""⟩

/-- The name of the script in notes: its file name, or its key if it has none. -/
def displayName (script : Script) : String :=
  script.path.fileName?.getD script.key

/-- The raw lines put together. -/
def content (script : Script) : String :=
  Text.joinWith script.separator script.rawLines

end Script

end SourceWeave
