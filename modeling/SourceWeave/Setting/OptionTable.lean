import SourceWeave.Setting.Settings
import SourceWeave.Text.Escaped

/-!
# Option tables

The options that a plugin knows. Each has a long and a short name, a line of help, and a way to set
it. Applying settings goes through the handles in order and through the options of each in ascending
order; it stops at the first option that is unknown or cannot be set, and what was set before stays.
-/

namespace SourceWeave

/-- The names of an option and its help. -/
structure OptionInfo where
  /-- The long name. -/
  command : String
  /-- The short name. -/
  shortcut : String
  /-- What the option does. -/
  help : String
deriving DecidableEq, Repr

namespace OptionInfo

/-- The option in a listing. -/
def display (info : OptionInfo) : String :=
  info.command ++ "(" ++ info.shortcut ++ "): " ++ info.help

/-- The option with its fields named. -/
def describe (info : OptionInfo) : String :=
  "OptionInfo \x7b command: " ++ Text.quote info.command ++ ", shortcut: " ++
    Text.quote info.shortcut ++ ", help: " ++ Text.quote info.help ++ " \x7d"

/-- Tells whether `name` is one of the names of the option. -/
def hasName (info : OptionInfo) (name : String) : Bool :=
  info.command == name || info.shortcut == name

end OptionInfo

/-- An option of a `target`, with the way to set it. -/
structure OptionEntry (target : Type) where
  /-- The names of the option and its help. -/
  info : OptionInfo
  /-- Sets the option to a value. -/
  assign : String → target → Except Error target

/-- The options of a `target`, in the order in which they are listed. -/
structure OptionTable (target : Type) where
  /-- The options. -/
  entries : List (OptionEntry target)

namespace OptionTable

variable {target : Type}

/-- What is known of each option. -/
def infos (table : OptionTable target) : List OptionInfo :=
  table.entries.map (·.info)

/-- The table as a bracketed list of its options. -/
def describe (table : OptionTable target) : String :=
  "[" ++ ", ".intercalate (table.infos.map OptionInfo.describe) ++ "]"

/-- The first option with the given name. -/
def find? (table : OptionTable target) (name : String) : Option (OptionEntry target) :=
  table.entries.find? (·.info.hasName name)

/-- Sets one option of the plugin known as `handle`. -/
def assign (table : OptionTable target) (handle : String) (setting : String × String) :
    EStateM Error target Unit := fun current =>
  match table.find? setting.1 with
  | none => .error (.unknownOption handle setting.1) current
  | some entry =>
    match entry.assign setting.2 current with
    | .ok next => .ok () next
    | .error e => .error e current

/-- Applies all that is set under any of the handles. -/
def apply (table : OptionTable target) (settings : Settings) (handles : List String) :
    EStateM Error target Unit :=
  handles.forM fun handle => (settings.optionsFor handle).forM (table.assign handle)

/-- The settings applied to `start`, or the first error. -/
def configure (table : OptionTable target) (settings : Settings) (handles : List String)
    (start : target) : Except Error target :=
  match table.apply settings handles start with
  | .ok _ finish => .ok finish
  | .error e _ => .error e

end OptionTable

/-- Reads the value of an option. Blanks around it do not count. -/
def parseOption {α : Type} [OptionValue α] (option value : String) : Except Error α :=
  match OptionValue.read (Text.trim value) with
  | .ok v => .ok v
  | .error fault => .error (.invalidOptionValue option value fault)

end SourceWeave
