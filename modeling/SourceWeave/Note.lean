import SourceWeave.Text.Escaped

/-!
# Notes

What a run tells about its work. A note has a level, a message and named values; a value is either
shown as it is or put in quotes.
-/

namespace SourceWeave

/-- How much a note matters, the most urgent first. -/
inductive Level where
  /-- Something failed. -/
  | error
  /-- Something is probably not meant. -/
  | warn
  /-- Something happened. -/
  | info
  /-- A step of the work. -/
  | debug
  /-- A detail of a step. -/
  | trace
deriving DecidableEq, Repr

namespace Level

/-- The place of a level: the smaller, the more urgent. -/
def rank : Level → Nat
  | error => 0
  | warn => 1
  | info => 2
  | debug => 3
  | trace => 4

/-- The name of a level. -/
def label : Level → String
  | error => "ERROR"
  | warn => "WARN"
  | info => "INFO"
  | debug => "DEBUG"
  | trace => "TRACE"

/-- The level written as `text`, in letters of either case. -/
def ofText? (text : String) : Option Level :=
  match Text.lowercaseLatin text with
  | "error" => some .error
  | "warn" => some .warn
  | "info" => some .info
  | "debug" => some .debug
  | "trace" => some .trace
  | _ => none

end Level

/-- A value told in a note. -/
inductive NoteValue where
  /-- A text that is put in quotes. -/
  | quoted (text : String)
  /-- A text that is shown as it is. -/
  | bare (text : String)
deriving DecidableEq, Repr

namespace NoteValue

/-- The text of a value, without quotes. -/
def text : NoteValue → String
  | quoted text => text
  | bare text => text

/-- The value as it stands in a log line. -/
def render : NoteValue → String
  | quoted text => Text.quote text
  | bare text => text

end NoteValue

/-- One thing that a run tells about its work. -/
structure Note where
  /-- How much the note matters. -/
  level : Level
  /-- What happened. -/
  message : String
  /-- What it happened to. -/
  fields : List (String × NoteValue)
deriving DecidableEq, Repr

namespace Note

/-- Tells whether a note is at least as urgent as `level`. -/
def reaches (note : Note) (level : Level) : Bool :=
  note.level.rank ≤ level.rank

/-- The note as a log line. -/
def render (note : Note) : String :=
  note.level.label ++ " " ++ Text.disarm note.message ++
    String.join (note.fields.map fun (name, value) => " " ++ name ++ "=" ++ value.render)

end Note

end SourceWeave
