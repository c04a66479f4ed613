import SourceWeave.Note
import SourceWeave.Sources

/-!
# Sessions

A session is the sources of a run together with the journal of what was done to them. Each change of
the sources has a counterpart here that also writes a note.
-/

namespace SourceWeave

/-- The sources of a run and the notes taken so far. -/
structure Session where
  /-- The sources. -/
  sources : Sources
  /-- The notes, in the order in which they were taken. -/
  journal : Array Note

namespace Session

/-- No sources and no notes. -/
def start (cwd : Path) : Session := ⟨.empty cwd, #[]⟩

/-- Takes a note. -/
def note (session : Session) (level : Level) (message : String)
    (fields : List (String × NoteValue)) : Session :=
  { session with journal := session.journal.push ⟨level, message, fields⟩ }

/-- Takes notes one after another. -/
def addNotes (session : Session) (notes : List Note) : Session :=
  { session with journal := session.journal.appendList notes }

/-- Takes another scheme into use, if there is one. -/
def setScheme (session : Session) : Option Scheme → Session
  | none => session
  | some scheme =>
    let session := session.note .debug "changed resolution scheme" [("scheme", .quoted scheme.name)]
    { session with sources := session.sources.setScheme scheme }

/-- Puts a script at the end of the sources, unless its key is tracked. -/
def enqueue (session : Session) (script : Script) : Session :=
  if session.sources.containsKey script.key then session
  else
    let session := session.note .debug "queued script"
      [("key", .bare script.key), ("file", .quoted script.displayName)]
    { session with sources := session.sources.enqueue script }

/-- Changes how far a script has come, if its key is tracked. -/
def setStage (session : Session) (key : String) (stage : Stage) : Session :=
  match session.sources.find? key with
  | none => session
  | some entry =>
    let session := session.note .debug "updated script stage"
      [("key", .quoted key), ("file", .quoted entry.script.displayName),
        ("stage", .bare stage.label)]
    { session with sources := session.sources.setStage key stage }

/-- Moves a script to the end of the sources, if its key is tracked. -/
def moveToEnd (session : Session) (key : String) : Session :=
  match session.sources.find? key with
  | none => session
  | some entry =>
    let session := session.note .debug "moved script to end of emission order"
      [("key", .quoted key), ("file", .quoted entry.script.displayName)]
    { session with sources := session.sources.moveToEnd key }

/-- Locks or unlocks the creation of scripts. -/
def setLock (session : Session) (locked : Bool) : Session :=
  { session with sources := session.sources.setLock locked }

/-- Makes a script. An attempt while creation is locked is noted. -/
def tryCreate? (session : Session) (separator : String) (rawLines : List String)
    (resolution : Resolution) : Option Script × Session :=
  let created := session.sources.tryCreate? separator rawLines resolution
  if session.sources.locked then
    (created, session.note .warn "plugin attempted file creation outside the permitted stage"
      [("key", .quoted (resolution.key?.getD ""))])
  else (created, session)

/-- Does `work` while the creation of scripts is unlocked, and then restores the lock. -/
def whileIngesting {α : Type} (work : Session → α × Session) (session : Session) : α × Session :=
  let (result, finished) := work (session.setLock false)
  (result, finished.setLock session.sources.locked)

end Session

end SourceWeave
