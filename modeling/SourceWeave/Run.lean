import SourceWeave.Chain

/-!
# Runs

A run takes the inputs in, and then, one at a time, every script that waits: its lines go through
the first phase of the chain, in which further scripts may be taken in. When none waits any more,
every script goes through the second phase, in the order in which the scripts now stand, and the
lines that come out are the output.

A plugin may keep a run going for ever by taking in script after script, so a run is given a limit
on the number of scripts it processes in the first phase. A run that meets its limit has no output.
-/

namespace SourceWeave

/-- What is asked of a run. -/
structure Job where
  /-- The references of the inputs. -/
  inputs : List String
  /-- The options of the plugins. -/
  settings : Settings := .empty
  /-- The names that are defined. -/
  definitions : Definitions := .empty
  /-- The separator recorded on the inputs. -/
  separator : String := "\n"
  /-- The directory in which the references of the inputs are written. -/
  baseDirectory : Path := ⟨""⟩
  /-- The scheme to take into use before the plugins are configured. -/
  scheme? : Option Scheme := none

/-- A script of the output. -/
structure EmittedScript where
  /-- The key of the script. -/
  key : String
  /-- Where the script was read from. -/
  path : Path
  /-- The lines that came out of the chain. -/
  lines : List String
deriving DecidableEq, Repr

/-- What a run puts out. -/
structure Output where
  /-- The scripts, in order. -/
  scripts : List EmittedScript
deriving DecidableEq, Repr

namespace Output

/-- The keys, in order. -/
def order (output : Output) : List String :=
  output.scripts.map (·.key)

/-- The lines of all scripts, in order. -/
def lines (output : Output) : List String :=
  output.scripts.flatMap (·.lines)

/-- All lines put together with a separator between them. -/
def mergedWith (output : Output) (separator : String) : String :=
  Text.joinWith separator output.lines

/-- All lines put together with a line feed between them. -/
def merged (output : Output) : String :=
  output.mergedWith "\n"

end Output

/-- The lines of scripts, by their keys. -/
abbrev LinesByKey := Std.TreeMap String (List String)

namespace Run

variable {π : Type} [Plugin π]

/-- Makes the script of an input. -/
def loadInput (files : FileView) (job : Job) (input : String) : EStateM Error Session Script :=
  fun session =>
    let resolution := session.sources.resolve [input] job.baseDirectory
    match resolution.path? with
    | none => .error (.unresolvedInput input) session
    | some path =>
      if !files.isFile path then .error (.missingInput path.text) session
      else
        match files.readLines path with
        | .error e => .error e session
        | .ok lines =>
          match session.tryCreate? job.separator lines resolution with
          | (some script, session) => .ok script session
          | (none, session) => .error (.unresolvedInput input) session

/-- Takes inputs in, one after another. -/
def seed (files : FileView) (job : Job) : List String → EStateM Error Session Unit
  | [] => pure ()
  | input :: rest => do
    let script ← loadInput files job input
    modify (·.enqueue script)
    seed files job rest

/-- Changes the session of an engine. -/
def onSession (change : Session → Session) : EStateM Error (Engine π) Unit :=
  modify fun engine => { engine with session := change engine.session }

/-- Processes one script in the first phase, and marks it as done. -/
def processScript (files : FileView) (job : Job) (script : Script) :
    EStateM Error (Engine π) (List String) := do
  onSession (·.note .debug "processing script" [("key", .bare script.key)])
  let lines ← Chain.runPhase .onLoad ⟨script, files, job.definitions⟩ script.rawLines
  onSession (·.setStage script.key .done)
  return lines

/-- Processes waiting scripts until none is left, or gives up behind `limit` of them. -/
def drain (files : FileView) (job : Job) :
    Nat → LinesByKey → EStateM Error (Engine π) (Option LinesByKey)
  | 0, _ => pure none
  | limit + 1, loaded => do
    let engine ← get
    match engine.session.sources.nextReady? with
    | none => return some loaded
    | some script => do
      let lines ← processScript files job script
      drain files job limit (loaded.insert script.key lines)

/-- Runs the second phase over scripts, one after another, each with the lines that are taken out
for it. -/
def finish (files : FileView) (job : Job) :
    LinesByKey → List Script → LinesByKey → EStateM Error (Engine π) LinesByKey
  | _, [], finished => pure finished
  | loaded, script :: rest, finished => do
    let lines ← Chain.runPhase .onFinishUp ⟨script, files, job.definitions⟩
      (loaded.getD script.key [])
    finish files job (loaded.erase script.key) rest (finished.insert script.key lines)

/-- The scripts of the output, each with the lines that are taken out for it. -/
def emitScripts : LinesByKey → List Script → List EmittedScript
  | _, [] => []
  | finished, script :: rest =>
    ⟨script.key, script.path, finished.getD script.key []⟩ ::
      emitScripts (finished.erase script.key) rest

/-- The output of a run that has finished with these lines. -/
def emit (sources : Sources) (finished : LinesByKey) : Output :=
  ⟨emitScripts finished sources.scripts⟩

/-- Takes the inputs in and processes every waiting script. -/
def ingest (files : FileView) (job : Job) (limit : Nat) (chain : Chain π) :
    EStateM Error Session (Option (Chain π × LinesByKey)) := fun session =>
  match seed files job job.inputs session with
  | .error e session => .error e session
  | .ok _ session =>
    match drain files job limit {} ⟨chain, session⟩ with
    | .error e engine => .error e engine.session
    | .ok none engine => .ok none engine.session
    | .ok (some loaded) engine => .ok (some (engine.chain, loaded)) engine.session

/-- The value or the error of a computation, apart from the state that it leaves. -/
def split {σ α : Type} : EStateM.Result Error σ α → Except Error α × σ
  | .ok a state => (.ok a, state)
  | .error e state => (.error e, state)

/-- Runs a job with a chain that has been configured. -/
def process (files : FileView) (job : Job) (limit : Nat) (chain : Chain π) :
    EStateM Error Session (Option Output) := fun session =>
  match session.whileIngesting (fun session => split (ingest files job limit chain session)) with
  | (.error e, session) => .error e session
  | (.ok none, session) => .ok none session
  | (.ok (some (chain, loaded)), session) =>
    match finish files job loaded session.sources.scripts {} ⟨chain, session⟩ with
    | .error e engine => .error e engine.session
    | .ok finished engine => .ok (some (emit engine.session.sources finished)) engine.session

end Run

/-- Runs a job with the given plugins over the given files. There is no output if the run meets its
limit. -/
def Job.run {π : Type} [Plugin π] (job : Job) (files : FileView) (plugins : List π) (limit : Nat) :
    EStateM Error Session (Option Output) := do
  modify (·.setScheme job.scheme?)
  let chain ← Chain.configure job.settings job.definitions plugins
  Run.process files job limit chain

end SourceWeave
