import SourceWeave.Path.Basic

/-!
# Faults of files

Why a file could not be read or written.
-/

namespace SourceWeave

/-- Why a file could not be read or written. -/
inductive FileFault where
  /-- No file is held in memory under this path. -/
  | notInMemory (path : Path)
  /-- Nothing on the disk has this path. -/
  | notFound
  /-- A directory stands where a file is expected. -/
  | isDirectory
  /-- A file stands where a directory is expected. -/
  | notDirectory
  /-- A name is longer than the disk allows. -/
  | nameTooLong
  /-- The path holds a character that no path on the disk can hold. -/
  | invalidPath
  /-- The bytes of the file are no text. -/
  | notText
deriving DecidableEq, Repr

/-- The wording of a fault. -/
def FileFault.message : FileFault → String
  | .notInMemory path => "no in-memory file at \x60" ++ path.text ++ "\x60"
  | .notFound => "No such file or directory (os error 2)"
  | .isDirectory => "Is a directory (os error 21)"
  | .notDirectory => "Not a directory (os error 20)"
  | .nameTooLong => "File name too long (os error 36)"
  | .invalidPath => "file name contained an unexpected NUL byte"
  | .notText => "stream did not contain valid UTF-8"

end SourceWeave
