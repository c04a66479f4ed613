import SourceWeave.Command.Execute

/-!
# The program

Reads the project into a disk, executes the command line on it, and prints and writes what comes
out.
-/

namespace SourceWeave.Command

/-- The names that lead to an absolute path. -/
def namesOf (path : Path) : List String :=
  (path.normalize ⟨"/"⟩).components.filterMap fun component =>
    match component with
    | .name text => some text
    | _ => none

/-- Reads all directories and files below a place. What cannot be read is left out. -/
partial def readTree (disk : Disk) (place : List String) : IO Disk := do
  let directory := (← IO.currentDir) / ("/" ++ "/".intercalate place)
  let mut disk := disk.makeDirectories place
  let entries ← try directory.readDir catch _ => pure #[]
  for entry in entries do
    let names := place ++ [entry.fileName]
    if ← entry.path.isDir then disk ← readTree disk names
    else
      let bytes? ← try some <$> IO.FS.readBinFile entry.path catch _ => pure none
      if let some bytes := bytes? then disk := disk.putFile names bytes
  return disk

/-- The disk that a command line works on: the working directory and the root of the project, with
all that lies below them. -/
def readDisk (arguments : List String) : IO Disk := do
  let cwd : Path := ⟨(← IO.currentDir).toString⟩
  let disk : Disk := { Disk.empty with workingDirectory := namesOf cwd }
  match parseArguments arguments with
  | .ok (globals, .run _) =>
    let disk ← readTree disk (namesOf cwd)
    match globals.root? with
    | some root => readTree disk (namesOf (root.absoluteFrom cwd))
    | none => return disk
  | _ => return disk

end SourceWeave.Command

open SourceWeave.Command in
/-- Executes the command line. -/
def main (arguments : List String) : IO UInt32 := do
  let disk ← readDisk arguments
  let outcome := execute disk (← IO.getEnv "SRCPP_LOG") arguments
  for line in outcome.log do
    IO.eprintln line
  if let some (path, text) := outcome.written? then
    IO.FS.writeFile path.text text
  IO.print outcome.printed
  if let some failure := outcome.failure? then
    IO.eprintln failure.message
  return UInt32.ofNat outcome.exitCode
