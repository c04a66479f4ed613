import SourceWeave.Command.Report
import SourceWeave.Config

/-!
# Execution of the command line

What the program does, as a function of its arguments, the level set for its log, and the disk. It
gives the text to print, the lines to log, why it failed if it did, and the disk it leaves.
-/

namespace SourceWeave.Command

/-- Why the program failed. -/
inductive Failure where
  /-- The arguments are not understood. -/
  | usage
  /-- No command is given. -/
  | noCommand
  /-- The request was refused. -/
  | refused (error : Error)
  /-- Something else went wrong. -/
  | other (message : String)
deriving DecidableEq, Repr

/-- The wording of a failure. A refused request is told by its code, its message and its advice. -/
def Failure.message : Failure → String
  | .usage => "error: the arguments are not understood"
  | .noCommand => "No subcommand specified. Run \x60srcpp --help\x60 for usage."
  | .refused e =>
    e.code ++ "\n\n  x " ++ e.message ++ ((e.help?.map fun help => "\n  help: " ++ help).getD "")
  | .other message => "error: " ++ message

/-- What the program did. -/
structure Outcome where
  /-- Why it failed. -/
  failure? : Option Failure := none
  /-- The text to print. -/
  printed : String := ""
  /-- The lines to log. -/
  log : List String := []
  /-- The file that was written, with its text. -/
  written? : Option (Path × String) := none
  /-- The disk as the program left it. -/
  disk : Disk

namespace Outcome

/-- The exit code of the program. -/
def exitCode (outcome : Outcome) : Nat :=
  match outcome.failure? with
  | none => 0
  | some .noCommand => 1
  | some _ => 2

end Outcome

/-- The version of the program. -/
def version : String := "srcpp_cli 0.1.0"

/-- The level set by a name or a number, where zero stands for no level at all. What is no level
leaves only errors. -/
def namedLevel? (text : String) : Option Level :=
  match Text.lowercaseLatin text with
  | "off" | "0" => none
  | "1" => some .error
  | "2" => some .warn
  | "3" => some .info
  | "4" => some .debug
  | "5" => some .trace
  | name => some ((Level.ofText? name).getD .error)

/-- The least urgent level that is logged, or none if nothing is. A level that is set counts more
than the wish to be told more. -/
def logLevel? (verbose : Bool) : Option String → Option Level
  | none => some (if verbose then .debug else .warn)
  | some text => namedLevel? text

/-- The log lines for the notes that are logged. -/
def logLines (level? : Option Level) (notes : List Note) : List String :=
  match level? with
  | none => []
  | some level => (notes.filter (·.reaches level)).map Note.render

/-- How many scripts a run of the built-in plugins can process. Each is an input or is named by a
line of a file or by one of the two removal keywords, and a pattern names no more scripts than there
are files. -/
def processingBound (inputs files lines : Nat) : Nat :=
  inputs + (lines + 2 * files) * (files + 1) + 1

/-- How many files a disk holds, and how many lines these have in all. -/
def measure (disk : Disk) : Nat × Nat :=
  disk.nodes.toList.foldl (fun (files, lines) (_, node) =>
    match node with
    | .directory => (files, lines)
    | .file bytes =>
      let text := (String.fromUTF8? bytes).getD ""
      (files + 1, lines + (Text.splitLines text).length)) (0, 0)

/-- What the options of a run and the configuration of the project ask for. -/
def prepare (root : Path) (config : Config) (options : RunOptions) (cwd : Path) :
    Except Failure (Job × List Builtin) := do
  let settings ← match options.settings.foldlM Settings.setEntry config.toSettings with
    | .ok settings => pure settings
    | .error e => throw (.refused e)
  let definitions := options.definitions.foldl Definitions.define config.toDefinitions
  let inputs :=
    if options.inputs.isEmpty then config.inputsAt root else options.inputs.map root.join
  if inputs.isEmpty then throw (.other "no inputs given and none configured in srcpp.toml")
  let plugins ← match Builtin.chain (options.chain?.getD config.chain) with
    | .ok plugins => pure plugins
    | .error e => throw (.refused e)
  let job : Job :=
    { inputs := inputs.map (·.text)
      settings := settings
      definitions := definitions
      separator := config.separator
      baseDirectory := root
      scheme? := if options.scheme? = some .parameterized then some (.parameterized cwd) else none }
  return (job, plugins)

/-- Prints the output of a run, or writes it to a file. -/
def deliver (disk : Disk) (root : Path) (options : RunOptions) (output : Output)
    (log : List String) : Outcome :=
  let rendered := renderOutput output (options.format?.getD .text)
  match options.output? with
  | none => { printed := rendered, log := log, disk := disk }
  | some path =>
    let target := root.join path
    match disk.writeText target rendered with
    | .error fault => { failure? := some (.other fault.message), log := log, disk := disk }
    | .ok written =>
      let shown := (target.relativeTo? root).getD target
      { printed :=
          "Merged " ++ toString output.scripts.length ++ " file(s) into " ++ shown.text ++ "\n"
        log := log
        written? := some (target, rendered)
        disk := written }

/-- The lines that tell the order of the output. -/
def orderLines (output : Output) : List String :=
  "Emission order:" :: output.order.map ("  " ++ ·)

/-- Runs the preprocessor. -/
def executeRun (disk : Disk) (level? : Option Level) (globals : GlobalOptions)
    (options : RunOptions) : Outcome :=
  let cwd := disk.workingPath
  let root := globals.root?.getD cwd
  match Config.load disk root with
  | .error e => { failure? := some (.refused e), disk := disk }
  | .ok (config?, notes) =>
    let config := config?.getD {}
    match prepare root config options cwd with
    | .error failure => { failure? := some failure, log := logLines level? notes, disk := disk }
    | .ok (job, plugins) =>
      let (files, lines) := measure disk
      let limit := processingBound job.inputs.length files lines
      match job.run disk.notedView plugins limit ((Session.start cwd).addNotes notes) with
      | .error e session =>
        { failure? := some (.refused e)
          log := logLines level? session.journal.toList
          disk := disk }
      | .ok none session =>
        { failure? := some (.other "too many scripts")
          log := logLines level? session.journal.toList
          disk := disk }
      | .ok (some output) session =>
        let told := logLines level? session.journal.toList
        deliver disk root options output
          (if globals.verbose then told ++ orderLines output else told)

/-- Does what the arguments ask for. -/
def execute (disk : Disk) (logSetting : Option String) (arguments : List String) : Outcome :=
  match parseArguments arguments with
  | .error .usage => { failure? := some .usage, disk := disk }
  | .error .help => { disk := disk }
  | .error .version => { printed := version ++ "\n", disk := disk }
  | .ok (_, .nothing) => { failure? := some .noCommand, disk := disk }
  | .ok (_, .plugins format) => { printed := renderPlugins format, disk := disk }
  | .ok (globals, .run options) =>
    executeRun disk (logLevel? globals.verbose logSetting) globals options

end SourceWeave.Command
