import SourceWeave.Files.Fault
import SourceWeave.Glob.Basic
import SourceWeave.Setting.Value

/-!
# Errors

The reasons for which a run, a configuration or a setting is refused. Each has a message, a code
that names its kind, and for some of them advice.
-/

namespace SourceWeave

/-- Why a request was refused. -/
inductive Error where
  /-- A file could not be read or written. -/
  | file (fault : FileFault)
  /-- An input names a file that does not exist. -/
  | missingInput (path : String)
  /-- An input does not name a file. -/
  | unresolvedInput (reference : String)
  /-- The configuration could not be read. -/
  | invalidConfig
  /-- No plugin is known under this handle. -/
  | unknownPlugin (handle : String)
  /-- The plugin has no such option. -/
  | unknownOption (handle option : String)
  /-- The value does not suit the option. -/
  | invalidOptionValue (option value : String) (fault : ValueFault)
  /-- The text of a setting is not of the form that settings have. -/
  | malformedSetting (entry : String)
  /-- The glob could not be read. -/
  | invalidPattern (pattern : String) (fault : Glob.Fault)
deriving DecidableEq, Repr

namespace Error

/-- The message of an error. -/
def message : Error → String
  | file fault => fault.message
  | missingInput path => "input file not found: \x60" ++ path ++ "\x60"
  | unresolvedInput reference =>
    "input reference could not be resolved: \x60" ++ reference ++ "\x60"
  | invalidConfig => "failed to parse config file"
  | unknownPlugin handle => "unknown plugin \x60" ++ handle ++ "\x60 in chain"
  | unknownOption handle option =>
    "unknown option \x60" ++ option ++ "\x60 for plugin \x60" ++ handle ++ "\x60"
  | invalidOptionValue option value fault =>
    "invalid value \x60" ++ value ++ "\x60 for option \x60" ++ option ++ "\x60: " ++ fault.message
  | malformedSetting entry => "malformed setting \x60" ++ entry ++ "\x60"
  | invalidPattern pattern fault =>
    "invalid file pattern \x60" ++ pattern ++ "\x60: " ++ fault.message pattern

/-- The code that names the kind of an error. -/
def code : Error → String
  | file _ => "srcpp::io_error"
  | missingInput _ => "srcpp::missing_input"
  | unresolvedInput _ => "srcpp::unresolved_input"
  | invalidConfig => "srcpp::config_parse"
  | unknownPlugin _ => "srcpp::unknown_plugin"
  | unknownOption _ _ => "srcpp::unknown_option"
  | invalidOptionValue _ _ _ => "srcpp::invalid_option_value"
  | malformedSetting _ => "srcpp::malformed_setting"
  | invalidPattern _ _ => "srcpp::invalid_pattern"

/-- Advice on how to avoid an error. -/
def help? : Error → Option String
  | missingInput _ =>
    some "check the path passed to \x60srcpp run\x60 or the \x60inputs\x60 list in srcpp.toml"
  | invalidConfig =>
    some "check that srcpp.toml is valid TOML with \x60chain\x60 and [settings.<prefix>] tables"
  | unknownPlugin _ => some "run \x60srcpp plugins\x60 to list the available plugin prefixes"
  | unknownOption _ _ => some "run \x60srcpp plugins\x60 to list the options each plugin accepts"
  | malformedSetting _ => some "settings are written as \x60<prefix>:<option>=<value>\x60"
  | file _ | unresolvedInput _ | invalidOptionValue _ _ _ | invalidPattern _ _ => none

end Error

end SourceWeave
