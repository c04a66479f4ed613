import SourceWeave.Plugin.Basic

/-!
# Chains of plugins

A chain runs its plugins over a script in two phases. Within a phase the line transforms that stand
in front run first, then the transforms of the whole script, then the other line transforms, each
kind in the order of the chain. At the end of the phase the clean-up drops every line that is one of
the clean-up tokens of the chain.
-/

namespace SourceWeave

/-- The place of a transform within a phase. -/
inductive Slot where
  /-- A line transform in front of the whole-script transforms. -/
  | lineBefore
  /-- A whole-script transform. -/
  | fullScript
  /-- A line transform behind the whole-script transforms. -/
  | lineAfter
deriving DecidableEq, Repr

namespace Slot

/-- The place of a slot in the order of slots. -/
def rank : Slot → Nat
  | lineBefore => 0
  | fullScript => 1
  | lineAfter => 2

/-- The name of a slot. -/
def label : Slot → String
  | lineBefore => "LineBefore"
  | fullScript => "FullScript"
  | lineAfter => "LineAfter"

/-- The slot of a line transform. -/
def ofOrder : LineOrder → Slot
  | .before => lineBefore
  | .after => lineAfter

end Slot

namespace Phase

/-- The place of a phase in a run. -/
def rank : Phase → Nat
  | onLoad => 0
  | onFinishUp => 1

/-- The name of a phase in descriptions. -/
def title : Phase → String
  | onLoad => "OnLoad"
  | onFinishUp => "OnFinishUp"

end Phase

/-- One transform of a chain. -/
structure ChainStep where
  /-- The phase in which it runs. -/
  phase : Phase
  /-- Its place within the phase. -/
  slot : Slot
  /-- The position of its plugin in the chain. -/
  plugin : Nat
deriving DecidableEq, Repr

namespace ChainStep

/-- Steps are taken in the order of their phases, and of their slots within a phase. -/
def precedes (a b : ChainStep) : Bool :=
  a.phase.rank < b.phase.rank || (a.phase.rank == b.phase.rank && a.slot.rank ≤ b.slot.rank)

/-- The step with its fields named. -/
def describe (step : ChainStep) : String :=
  "ChainStep \x7b stage: " ++ step.phase.title ++ ", slot: " ++ step.slot.label ++ ", plugin: " ++
    toString step.plugin ++ " \x7d"

end ChainStep

/-- The clean-up tokens of all descriptors. -/
def collectTokens (descriptors : List Descriptor) : Std.TreeSet String :=
  descriptors.foldl
    (fun tokens descriptor => descriptor.cleanupTokens.toList.foldl (·.insert ·) tokens) ∅

/-- Drops the lines that are clean-up tokens. -/
def dropTokens (tokens : Std.TreeSet String) (lines : List String) : List String :=
  lines.filter fun line => !tokens.contains line

/-- A chain of plugins. Before it is configured it has no steps. -/
structure Chain (π : Type) where
  /-- The plugins, in order. -/
  plugins : List π
  /-- The descriptors of the plugins. -/
  descriptors : List Descriptor := []
  /-- The transforms, in the order in which they run. -/
  steps : List ChainStep := []
  /-- The lines that the clean-up drops. -/
  cleanupTokens : Std.TreeSet String := ∅

/-- A chain at work in a session. -/
structure Engine (π : Type) where
  /-- The chain. -/
  chain : Chain π
  /-- The session. -/
  session : Session

namespace Chain

variable {π : Type} [Plugin π]

/-- The names of the plugins. -/
def names (chain : Chain π) : List String :=
  chain.plugins.map Plugin.name

/-- The steps of the plugin at a position. -/
def stepsOf (position : Nat) (plugin : π) : List ChainStep :=
  let kind := Plugin.kind plugin
  let descriptor := Plugin.descriptor plugin
  (if kind.hasLine then [⟨descriptor.phase, .ofOrder descriptor.order, position⟩] else []) ++
    if kind.hasFullScript then [⟨descriptor.phase, .fullScript, position⟩] else []

/-- The steps of all plugins, in the order in which they run. -/
def buildSteps (plugins : List π) : List ChainStep :=
  (plugins.zipIdx.flatMap fun (plugin, position) => stepsOf position plugin).mergeSort
    ChainStep.precedes

/-- Tells whether a transform runs in a phase. -/
def hasPhase (chain : Chain π) (phase : Phase) : Bool :=
  chain.steps.any (·.phase == phase)

/-- Configures plugins one after another. -/
def configurePlugins (settings : Settings) (definitions : Definitions) :
    List π → EStateM Error Session (List π)
  | [] => pure []
  | plugin :: rest => do
    let plugin ← Plugin.configure settings definitions plugin
    modify fun session =>
      session.note .debug "initialized plugin" [("plugin", .quoted (Plugin.name plugin))]
    let others ← configurePlugins settings definitions rest
    return plugin :: others

/-- The chain of plugins that have been configured. -/
def ofConfigured (plugins : List π) : Chain π :=
  let descriptors := plugins.map Plugin.descriptor
  { plugins := plugins
    descriptors := descriptors
    steps := buildSteps plugins
    cleanupTokens := collectTokens descriptors }

/-- Configures plugins and makes a chain of them. -/
def configure (settings : Settings) (definitions : Definitions) (plugins : List π) :
    EStateM Error Session (Chain π) := do
  let plugins ← configurePlugins settings definitions plugins
  return ofConfigured plugins

/-- Runs the transform of a plugin in a slot. -/
def runPlugin (slot : Slot) (context : Context) (lines : List String) :
    EStateM Error (π × Session) (List String) := fun (plugin, session) =>
  match slot with
  | .fullScript => Plugin.transformScript context lines (plugin, session)
  | .lineBefore | .lineAfter =>
    let (lines, plugin, notes) := Plugin.transformLines plugin lines
    .ok lines (plugin, session.addNotes notes)

/-- Puts a plugin back into the chain at its position. -/
def putBack (engine : Engine π) (position : Nat) (state : π × Session) : Engine π :=
  { chain := { engine.chain with plugins := engine.chain.plugins.set position state.1 }
    session := state.2 }

/-- Runs one step of the chain. -/
def runStep (step : ChainStep) (context : Context) (lines : List String) :
    EStateM Error (Engine π) (List String) := fun engine =>
  match engine.chain.plugins[step.plugin]? with
  | none => .ok lines engine
  | some plugin =>
    match runPlugin step.slot context lines (plugin, engine.session) with
    | .ok lines state => .ok lines (putBack engine step.plugin state)
    | .error e state => .error e (putBack engine step.plugin state)

/-- Runs steps one after another. -/
def runSteps (context : Context) :
    List ChainStep → List String → EStateM Error (Engine π) (List String)
  | [], lines => pure lines
  | step :: rest, lines => do
    let lines ← runStep step context lines
    runSteps context rest lines

/-- Runs all steps of a phase over the lines of a script, and then the clean-up. -/
def runPhase (phase : Phase) (context : Context) (lines : List String) :
    EStateM Error (Engine π) (List String) := do
  let engine ← get
  let lines ← runSteps context (engine.chain.steps.filter (·.phase == phase)) lines
  return dropTokens engine.chain.cleanupTokens lines

/-- The chain with its fields named. -/
def describe (chain : Chain π) : String :=
  "PluginChain \x7b plugins: " ++ Text.quoteList chain.names ++ ", steps: [" ++
    ", ".intercalate (chain.steps.map ChainStep.describe) ++ "], cleanup_tokens: \x7b" ++
    ", ".intercalate (chain.cleanupTokens.toList.map Text.quote) ++ "\x7d \x7d"

end Chain

end SourceWeave
