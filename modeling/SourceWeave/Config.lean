import SourceWeave.Definitions
import SourceWeave.Files.Disk
import SourceWeave.Note
import SourceWeave.Plugin.Builtin
import SourceWeave.Setting.Settings
import SourceWeave.Toml.Document

/-!
# Project configuration

A project may have a configuration file in its root directory: a TOML document that names inputs, a
separator, a chain of plugins, definitions and settings. Keys that are not known are ignored.
-/

namespace SourceWeave

/-- The value of a setting in a configuration. -/
inductive SettingValue where
  /-- A text. -/
  | text (value : String)
  /-- A truth value. -/
  | boolean (value : Bool)
  /-- A whole number. -/
  | integer (value : Int)
deriving DecidableEq, Repr

namespace SettingValue

/-- The value as plugins are told it. -/
def render : SettingValue → String
  | text value => value
  | boolean value => if value then "true" else "false"
  | integer value => toString value

/-- The name of the kind of a value. -/
def kind : SettingValue → String
  | text _ => "string"
  | boolean _ => "boolean"
  | integer _ => "integer"

/-- The smallest and the largest number a setting may have. -/
def integerRange : Int × Int := (-Int.ofNat (Nat.pow 2 63), Int.ofNat (Nat.pow 2 63 - 1))

/-- The setting that a value of a document stands for. -/
def ofToml? : Toml.Value → Option SettingValue
  | .text value => some (.text value)
  | .boolean value => some (.boolean value)
  | .integer value =>
    if integerRange.1 ≤ value ∧ value ≤ integerRange.2 then some (.integer value) else none
  | _ => none

end SettingValue

/-- The configuration of a project. -/
structure Config where
  /-- The inputs, seen from the root of the project. -/
  inputs : List Path := []
  /-- The separator recorded on the inputs. -/
  separator : String := "\n"
  /-- The handles of the plugins in the chain, if the chain is given. -/
  chain? : Option (List String) := none
  /-- The names that are defined. -/
  definitions : List String := []
  /-- The settings, by handle and option. -/
  settings : Std.TreeMap String (Std.TreeMap String SettingValue) := ∅

namespace Config

/-- The entry under which a date that stands for a table holds its text. -/
def momentKey : String := "$__toml_private_datetime"

/-- A text. -/
def text? : Toml.Value → Option String
  | .text value => some value
  | _ => none

/-- A list of texts. -/
def texts? : Toml.Value → Option (List String)
  | .array items => items.mapM text?
  | _ => none

/-- The settings of one plugin. A date counts as a table with one entry. -/
def options? : Toml.Value → Option (Std.TreeMap String SettingValue)
  | .table _ entries =>
    entries.foldlM
      (fun options (name, value) => (SettingValue.ofToml? value).map (options.insert name ·)) ∅
  | .moment value => some ((∅ : Std.TreeMap String SettingValue).insert momentKey (.text value))
  | _ => none

/-- The settings of all plugins. -/
def settings? : Toml.Value → Option (Std.TreeMap String (Std.TreeMap String SettingValue))
  | .table _ entries =>
    entries.foldlM
      (fun settings (handle, value) => (options? value).map (settings.insert handle ·)) ∅
  | _ => none

/-- Reads the value of a key, or takes the default if the key is missing. -/
def read? {α : Type} (entries : Toml.Entries) (key : String) (decode : Toml.Value → Option α)
    (default : α) : Option α :=
  match Toml.Entries.get? entries key with
  | some value => decode value
  | none => some default

/-- The configuration that a document holds. -/
def ofEntries? (entries : Toml.Entries) : Option Config := do
  let inputs ← read? entries "inputs" texts? []
  let separator ← read? entries "separator" text? "\n"
  let chain? ← read? entries "chain" (fun value => (texts? value).map some) none
  let definitions ← read? entries "definitions" texts? []
  let settings ← read? entries "settings" settings? ∅
  return ⟨inputs.map Path.mk, separator, chain?, definitions, settings⟩

/-- Reads a configuration. -/
def parse (text : String) : Except Error Config :=
  match (Toml.read? text).bind ofEntries? with
  | some config => .ok config
  | none => .error .invalidConfig

/-- Where the configuration of a project may be, seen from its root. The first that exists counts.
-/
def candidates : List String := ["srcpp.toml", ".srcpp.toml", ".config/srcpp.toml"]

/-- The configuration file of a project. -/
def path? (disk : Disk) (root : Path) : Option Path :=
  (candidates.map fun name => root.join ⟨name⟩).find? disk.isFile

/-- Reads the configuration of a project, if it has one, and notes where it was found. -/
def load (disk : Disk) (root : Path) : Except Error (Option Config × List Note) :=
  match path? disk root with
  | none => .ok (none, [])
  | some path =>
    match disk.readText path with
    | .error fault => .error (.file fault)
    | .ok text =>
      match parse text with
      | .error e => .error e
      | .ok config => .ok (some config, [⟨.debug, "loaded config", [("path", .bare path.text)]⟩])

/-- The handles of the plugins in the chain. -/
def chain (config : Config) : List String :=
  config.chain?.getD Builtin.defaultChain

/-- The settings as plugins are told them. -/
def toSettings (config : Config) : Settings :=
  config.settings.toList.foldl (fun settings (handle, options) =>
    options.toList.foldl (fun settings (option, value) => settings.set handle option value.render)
      settings) Settings.empty

/-- The definitions. -/
def toDefinitions (config : Config) : Definitions :=
  Definitions.ofList config.definitions

/-- The inputs, seen from where the root is. -/
def inputsAt (config : Config) (root : Path) : List Path :=
  config.inputs.map root.join

end Config

end SourceWeave
