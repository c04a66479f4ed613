import SourceWeave.Path.Basic
import SourceWeave.Text.Fields

/-!
# Arguments of the command line

The arguments are read from left to right. Options may stand anywhere; a long option has its value
behind an equals sign or in the next argument, a short one also directly behind its letter. Two
dashes end the options. Options of the program itself may stand in front of the command or behind
it.
-/

namespace SourceWeave.Command

/-- How a result is written. -/
inductive OutputFormat where
  /-- As text. -/
  | text
  /-- As JSON. -/
  | json
deriving DecidableEq, Repr

/-- How references are told apart. -/
inductive SchemeKind where
  /-- By their paths. -/
  | pathKey
  /-- By their paths and parameters. -/
  | parameterized
deriving DecidableEq, Repr

/-- The options of the program itself. -/
structure GlobalOptions where
  /-- The root of the project. -/
  root? : Option Path := none
  /-- Whether to tell more. -/
  verbose : Bool := false
  /-- Whether to do without colours. -/
  noColor : Bool := false
deriving DecidableEq, Repr

/-- What is asked of a run. -/
structure RunOptions where
  /-- The inputs. -/
  inputs : List Path := []
  /-- The file to write the result to. -/
  output? : Option Path := none
  /-- How the result is written. -/
  format? : Option OutputFormat := none
  /-- Settings, as they are written. -/
  settings : List String := []
  /-- The handles of the plugins in the chain. -/
  chain? : Option (List String) := none
  /-- The names to define. -/
  definitions : List String := []
  /-- How references are told apart. -/
  scheme? : Option SchemeKind := none
deriving DecidableEq, Repr

/-- What the program is asked to do. -/
inductive Task where
  /-- Nothing. -/
  | nothing
  /-- To run the preprocessor. -/
  | run (options : RunOptions)
  /-- To list the plugins. -/
  | plugins (format : OutputFormat)
deriving DecidableEq, Repr

/-- Why arguments do not lead to a task. -/
inductive Stop where
  /-- They are not understood. -/
  | usage
  /-- They ask for help. -/
  | help
  /-- They ask for the version. -/
  | version
deriving DecidableEq, Repr

/-- What has been read of the arguments in one place: in front of the command, or behind it. -/
structure Reading (α : Type) where
  /-- The options of the program itself. -/
  globals : GlobalOptions := {}
  /-- The rest. -/
  own : α

/-- What an option does with its value, or without one if it has none. -/
inductive OptionAction (α : Type) where
  /-- The option has no value. -/
  | flag (apply : Reading α → Except Stop (Reading α))
  /-- The option has a value. -/
  | valued (apply : String → Reading α → Except Stop (Reading α))

/-- The options that are known in one place. -/
structure OptionSet (α : Type) where
  /-- The option with a long name. -/
  long? : String → Option (OptionAction α)
  /-- The option with a letter. -/
  short? : Char → Option (OptionAction α)

/-- A path given as a value. It may not be empty. -/
def pathValue (text : String) : Except Stop Path :=
  if text.isEmpty then .error .usage else .ok ⟨text⟩

/-- Sets something that may be set once only. -/
def setOnce {β : Type} (current : Option β) (value : β) : Except Stop (Option β) :=
  match current with
  | some _ => .error .usage
  | none => .ok (some value)

/-- Raises a flag that may be raised once only. -/
def raiseOnce (current : Bool) : Except Stop Bool :=
  if current then .error .usage else .ok true

section Globals

variable {α : Type}

/-- The option for the root of the project. -/
def rootAction : OptionAction α :=
  .valued fun text reading => do
    let path ← pathValue text
    let root? ← setOnce reading.globals.root? path
    return { reading with globals := { reading.globals with root? := root? } }

/-- The option to tell more. -/
def verboseAction : OptionAction α :=
  .flag fun reading => do
    let verbose ← raiseOnce reading.globals.verbose
    return { reading with globals := { reading.globals with verbose := verbose } }

/-- The option to do without colours. -/
def noColorAction : OptionAction α :=
  .flag fun reading => do
    let noColor ← raiseOnce reading.globals.noColor
    return { reading with globals := { reading.globals with noColor := noColor } }

/-- The option for help. -/
def helpAction : OptionAction α :=
  .flag fun _ => .error .help

/-- The long options of the program itself. -/
def globalLong? (name : String) : Option (OptionAction α) :=
  match name with
  | "path" => some rootAction
  | "verbose" => some verboseAction
  | "no-color" => some noColorAction
  | "help" => some helpAction
  | _ => none

/-- The short options of the program itself. -/
def globalShort? (letter : Char) : Option (OptionAction α) :=
  match letter with
  | 'p' => some rootAction
  | 'v' => some verboseAction
  | 'h' => some helpAction
  | _ => none

end Globals

/-- The options in front of the command. -/
def topOptions : OptionSet Unit where
  long? name := if name = "version" then some (.flag fun _ => .error .version) else globalLong? name
  short? letter :=
    if letter = 'V' then some (.flag fun _ => .error .version) else globalShort? letter

/-- The format with a name. -/
def formatValue (text : String) : Except Stop OutputFormat :=
  match text with
  | "text" => .ok .text
  | "json" => .ok .json
  | _ => .error .usage

/-- The scheme with a name. -/
def schemeValue (text : String) : Except Stop SchemeKind :=
  match text with
  | "path-key" => .ok .pathKey
  | "parameterized" => .ok .parameterized
  | _ => .error .usage

/-- An option of the listing of plugins. -/
def pluginsLong? (name : String) : Option (OptionAction (Option OutputFormat)) :=
  match name with
  | "format" => some (.valued fun text reading => do
      let format ← formatValue text
      let format? ← setOnce reading.own format
      return { reading with own := format? })
  | _ => globalLong? name

/-- The options of the listing of plugins. -/
def pluginsOptions : OptionSet (Option OutputFormat) where
  long? := pluginsLong?
  short? := globalShort?

/-- The option for the file to write to. -/
def outputAction : OptionAction RunOptions :=
  .valued fun text reading => do
    let path ← pathValue text
    let output? ← setOnce reading.own.output? path
    return { reading with own := { reading.own with output? := output? } }

/-- The option for a definition. -/
def defineAction : OptionAction RunOptions :=
  .valued fun text reading =>
    let definitions := reading.own.definitions ++ [text]
    .ok { reading with own := { reading.own with definitions := definitions } }

/-- The handles that a value of the chain option names. -/
def chainValue (text : String) : List String :=
  (Text.fields ',' text.toList).map String.ofList

/-- A long option of a run. -/
def runLong? (name : String) : Option (OptionAction RunOptions) :=
  match name with
  | "output" => some outputAction
  | "define" => some defineAction
  | "format" => some (.valued fun text reading => do
      let format ← formatValue text
      let format? ← setOnce reading.own.format? format
      return { reading with own := { reading.own with format? := format? } })
  | "scheme" => some (.valued fun text reading => do
      let scheme ← schemeValue text
      let scheme? ← setOnce reading.own.scheme? scheme
      return { reading with own := { reading.own with scheme? := scheme? } })
  | "set" => some (.valued fun text reading =>
      .ok { reading with own := { reading.own with settings := reading.own.settings ++ [text] } })
  | "chain" => some (.valued fun text reading =>
      let chain := reading.own.chain?.getD [] ++ chainValue text
      .ok { reading with own := { reading.own with chain? := some chain } })
  | _ => globalLong? name

/-- The options of a run. -/
def runOptions : OptionSet RunOptions where
  long? := runLong?
  short? letter :=
    match letter with
    | 'o' => some outputAction
    | 'D' => some defineAction
    | _ => globalShort? letter

/-- Tells whether an argument is an option, and not a value. -/
def isOption (argument : List Char) : Bool :=
  match argument with
  | '-' :: _ :: _ => true
  | _ => false

/-- What is to be done with the next argument. -/
inductive Awaited (α : Type) where
  /-- It stands on its own. -/
  | anything
  /-- It is the value of an option. -/
  | value (apply : String → Reading α → Except Stop (Reading α))

/-- Reads a long option. -/
def readLong {α : Type} (options : OptionSet α) (body : List Char) (reading : Reading α) :
    Except Stop (Reading α × Awaited α) :=
  let name := String.ofList (body.takeWhile (· ≠ '='))
  match options.long? name, body.dropWhile (· ≠ '=') with
  | none, _ => .error .usage
  | some (.flag apply), [] => (apply reading).map (·, .anything)
  | some (.flag _), _ :: _ => .error .usage
  | some (.valued apply), [] => .ok (reading, .value apply)
  | some (.valued apply), _ :: value => (apply (String.ofList value) reading).map (·, .anything)

/-- Reads the letters of short options. The value of an option is what stands behind its letter. -/
def readShort {α : Type} (options : OptionSet α) :
    List Char → Reading α → Except Stop (Reading α × Awaited α)
  | [], reading => .ok (reading, .anything)
  | letter :: rest, reading =>
    match options.short? letter with
    | none => .error .usage
    | some (.flag apply) => do
      let reading ← apply reading
      readShort options rest reading
    | some (.valued apply) =>
      match rest with
      | [] => .ok (reading, .value apply)
      | '=' :: value => (apply (String.ofList value) reading).map (·, .anything)
      | value => (apply (String.ofList value) reading).map (·, .anything)

/-- Reads an option. -/
def readOption {α : Type} (options : OptionSet α) (argument : List Char) (reading : Reading α) :
    Except Stop (Reading α × Awaited α) :=
  match argument with
  | '-' :: '-' :: body => readLong options body reading
  | _ :: letters => readShort options letters reading
  | [] => .ok (reading, .anything)

/-- Reads the arguments behind a command. `positional` takes those that are no options. -/
def readArguments {α : Type} (options : OptionSet α)
    (positional : String → Reading α → Except Stop (Reading α)) :
    Awaited α → List String → Reading α → Except Stop (Reading α)
  | .anything, [], reading => .ok reading
  | .value _, [], _ => .error .usage
  | .value apply, argument :: rest, reading =>
    if isOption argument.toList then .error .usage
    else do
      let reading ← apply argument reading
      readArguments options positional .anything rest reading
  | .anything, argument :: rest, reading =>
    if argument = "--" then
      rest.foldlM (fun reading argument => positional argument reading) reading
    else if isOption argument.toList then do
      let (reading, awaited) ← readOption options argument.toList reading
      readArguments options positional awaited rest reading
    else do
      let reading ← positional argument reading
      readArguments options positional .anything rest reading

/-- The options of the program itself, where those behind the command count more. -/
def GlobalOptions.override (front back : GlobalOptions) : GlobalOptions where
  root? := back.root?.or front.root?
  verbose := front.verbose || back.verbose
  noColor := front.noColor || back.noColor

/-- Adds an input to a run. -/
def addInput (text : String) (reading : Reading RunOptions) : Except Stop (Reading RunOptions) := do
  let path ← pathValue text
  return { reading with own := { reading.own with inputs := reading.own.inputs ++ [path] } }

/-- Tells what the arguments behind the command for help lead to: to help if they name a command or
nothing. -/
def readHelp : List String → Stop
  | [] => .help
  | [name] => if name = "run" || name = "plugins" || name = "help" then .help else .usage
  | _ => .usage

/-- Reads a command and the arguments behind it. -/
def readCommand (name : String) (rest : List String) (front : GlobalOptions) :
    Except Stop (GlobalOptions × Task) :=
  match name with
  | "run" => do
    let reading ← readArguments runOptions addInput .anything rest { own := {} }
    return (front.override reading.globals, .run reading.own)
  | "plugins" => do
    let reading ←
      readArguments pluginsOptions (fun _ _ => .error .usage) .anything rest { own := none }
    return (front.override reading.globals, .plugins (reading.own.getD .text))
  | "help" => .error (readHelp rest)
  | _ => .error .usage

/-- Reads the arguments in front of a command, and then the command. -/
def readFront : Awaited Unit → List String → Reading Unit → Except Stop (GlobalOptions × Task)
  | .anything, [], reading => .ok (reading.globals, .nothing)
  | .value _, [], _ => .error .usage
  | .value apply, argument :: rest, reading =>
    if isOption argument.toList then .error .usage
    else do
      let reading ← apply argument reading
      readFront .anything rest reading
  | .anything, argument :: rest, reading =>
    if argument = "--" then if rest.isEmpty then .ok (reading.globals, .nothing) else .error .usage
    else if isOption argument.toList then do
      let (reading, awaited) ← readOption topOptions argument.toList reading
      readFront awaited rest reading
    else readCommand argument rest reading.globals

/-- Reads the arguments of the program. -/
def parseArguments (arguments : List String) : Except Stop (GlobalOptions × Task) :=
  readFront .anything arguments { own := () }

end SourceWeave.Command
