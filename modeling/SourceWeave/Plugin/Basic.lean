import SourceWeave.Definitions
import SourceWeave.Files.View
import SourceWeave.Session
import SourceWeave.Setting.OptionTable
import Std.Data.TreeSet

/-!
# Plugins

A plugin is configured once and then transforms scripts, line by line or as a whole. It may keep a
state of its own from one call to the next, and while it transforms a whole script it may work on
the session of the run. The descriptor of a plugin tells when it runs and which lines it leaves
behind for the clean-up at the end of a phase.
-/

namespace SourceWeave

/-- The transforms that a plugin offers. -/
inductive TransformKind where
  /-- Of single lines. -/
  | line
  /-- Of whole scripts. -/
  | fullScript
  /-- Of both. -/
  | both
deriving DecidableEq, Repr

namespace TransformKind

/-- Tells whether lines are transformed. -/
def hasLine : TransformKind → Bool
  | line | both => true
  | fullScript => false

/-- Tells whether whole scripts are transformed. -/
def hasFullScript : TransformKind → Bool
  | fullScript | both => true
  | line => false

/-- The name of a kind. -/
def label : TransformKind → String
  | line => "Line"
  | fullScript => "FullScript"
  | both => "Both"

end TransformKind

/-- When a plugin runs, and what it leaves for the clean-up. -/
structure Descriptor where
  /-- The handles under which the plugin is known. -/
  handles : List String
  /-- Where its line transform stands. -/
  order : LineOrder
  /-- The phase in which it runs. -/
  phase : Phase
  /-- The lines that the clean-up drops. -/
  cleanupTokens : Std.TreeSet String

/-- What a plugin is told when it transforms a whole script. -/
structure Context where
  /-- The script. -/
  script : Script
  /-- The files of the run. -/
  files : FileView
  /-- The names that are defined. -/
  definitions : Definitions

/-- A type of plugins. A value of the type is a plugin in its present state. -/
class Plugin (π : Type) where
  /-- The name of the plugin. -/
  name : π → String
  /-- The transforms that it offers. -/
  kind : π → TransformKind
  /-- When it runs, and what it leaves for the clean-up. -/
  descriptor : π → Descriptor
  /-- The options that it knows. -/
  options : π → List OptionInfo
  /-- Makes the plugin ready for a run. -/
  configure : Settings → Definitions → π → EStateM Error Session π
  /-- Transforms one line, and may take notes. -/
  transformLine : String → π → String × π × List Note
  /-- Transforms the lines of a script. -/
  transformScript : Context → List String → EStateM Error (π × Session) (List String)

namespace Plugin

/-- Transforms lines one after another. -/
def transformLines {π : Type} [Plugin π] (plugin : π) : List String → List String × π × List Note
  | [] => ([], plugin, [])
  | line :: rest =>
    let (line, plugin, notes) := transformLine line plugin
    let (others, plugin, more) := transformLines plugin rest
    (line :: others, plugin, notes ++ more)

/-- Runs a computation on one part of a plugin of two kinds. -/
def onPart {α β σ : Type} (wrap : α → β) (plugin : α) (session : Session)
    (work : EStateM Error (α × Session) σ) : EStateM.Result Error (β × Session) σ :=
  match work (plugin, session) with
  | .ok result (plugin, session) => .ok result (wrap plugin, session)
  | .error e (plugin, session) => .error e (wrap plugin, session)

/-- A plugin of either of two kinds. -/
instance {α β : Type} [Plugin α] [Plugin β] : Plugin (α ⊕ β) where
  name := Sum.elim name name
  kind := Sum.elim kind kind
  descriptor := Sum.elim descriptor descriptor
  options := Sum.elim options options
  configure settings definitions
    | .inl plugin => Sum.inl <$> configure settings definitions plugin
    | .inr plugin => Sum.inr <$> configure settings definitions plugin
  transformLine line
    | .inl plugin =>
      let (line, plugin, notes) := transformLine line plugin
      (line, .inl plugin, notes)
    | .inr plugin =>
      let (line, plugin, notes) := transformLine line plugin
      (line, .inr plugin, notes)
  transformScript context lines
    | (.inl plugin, session) => onPart .inl plugin session (transformScript context lines)
    | (.inr plugin, session) => onPart .inr plugin session (transformScript context lines)

end Plugin

end SourceWeave
