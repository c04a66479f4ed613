import SourceWeave.Command.Arguments
import SourceWeave.Plugin.Builtin
import SourceWeave.Chain
import SourceWeave.Run
import SourceWeave.Text.Json

/-!
# Reports of the command line

How the output of a run and the list of plugins are written, as text or as JSON.
-/

namespace SourceWeave.Command

/-- A script of the output as JSON. -/
def scriptJson (script : EmittedScript) : Json :=
  .object [("key", .string script.key), ("lines", .strings script.lines),
    ("path", .string script.path.text)]

/-- The output of a run as JSON. -/
def outputJson (output : Output) : Json :=
  .object [("order", .strings output.order), ("scripts", .array (output.scripts.map scriptJson))]

/-- The output of a run, written in a format. A merged text that is not empty ends with a line
feed. -/
def renderOutput (output : Output) : OutputFormat → String
  | .json => (outputJson output).pretty ++ "\n"
  | .text =>
    let merged := output.merged
    if merged.isEmpty then merged else merged ++ "\n"

/-- The name of a line order in descriptions. -/
def orderTitle : LineOrder → String
  | .before => "Before"
  | .after => "After"

/-- An option as JSON. -/
def optionJson (info : OptionInfo) : Json :=
  .object [("command", .string info.command), ("help", .string info.help),
    ("shortcut", .string info.shortcut)]

/-- A plugin as JSON. -/
def pluginJson (plugin : Builtin) : Json :=
  let descriptor := Plugin.descriptor plugin
  .object [("cleanup_tokens", .strings descriptor.cleanupTokens.toList),
    ("kind", .string (Plugin.kind plugin).label), ("name", .string (Plugin.name plugin)),
    ("options", .array ((Plugin.options plugin).map optionJson)),
    ("order", .string (orderTitle descriptor.order)), ("prefixes", .strings descriptor.handles),
    ("stage", .string descriptor.phase.title)]

/-- A line with a label and a value, the values of all lines below each other. -/
def fieldLine (label value : String) : String :=
  "  " ++ label ++ String.ofList (List.replicate (16 - label.length) ' ') ++ " " ++ value ++ "\n"

/-- A plugin as text. -/
def pluginText (plugin : Builtin) : String :=
  let descriptor := Plugin.descriptor plugin
  "\n" ++ Plugin.name plugin ++ "\n" ++
    fieldLine "prefixes" (", ".intercalate descriptor.handles) ++
    fieldLine "kind" (Plugin.kind plugin).label ++ fieldLine "stage" descriptor.phase.label ++
    fieldLine "order" descriptor.order.label ++ "  options:\n" ++
    String.join ((Plugin.options plugin).map fun info => "    " ++ info.display ++ "\n")

/-- The list of plugins, written in a format. -/
def renderPlugins : OutputFormat → String
  | .json => (Json.array (Builtin.all.map pluginJson)).pretty ++ "\n"
  | .text => String.join (Builtin.all.map pluginText)

end SourceWeave.Command
