import SourceWeave.Plugin.Basic
import SourceWeave.Plugin.Reference

/-!
# The includer

The includer looks for include directives: lines that consist of a keyword and a reference. A script
that is referred to for the first time is taken into the sources; one that is already there moves to
the end. A reference with a star in its first token stands for all files that match it, except the
script it is written in. In place of a directive the includer leaves a line for the clean-up.
-/

namespace SourceWeave

/-- The line that built-in plugins leave for the clean-up, unless they are told another. -/
def defaultRemovalKeyword : String := "###REMOVE###"

/-- The lines for the clean-up that belong to a removal keyword: the keyword, and the keyword in
lower case. -/
def removalTokens (keyword : String) : Std.TreeSet String :=
  ((∅ : Std.TreeSet String).insert keyword).insert (Text.lowercase keyword)

/-- The plugin that follows include directives. -/
structure Includer where
  /-- The keyword that starts a directive. -/
  keyword : String := "#include"
  /-- The line that takes the place of a directive. -/
  removalKeyword : String := defaultRemovalKeyword
  /-- The separator recorded on the scripts that are taken in. -/
  separator : String := "\n"
  /-- Where a line transform would stand. -/
  order : LineOrder := .after
  /-- The phase in which the plugin runs. -/
  phase : Phase := .onLoad
deriving DecidableEq, Repr

namespace Includer

/-- The handles of the includer. -/
def handles : List String := ["inc", "Include"]

/-- The options of the includer. -/
def optionTable : OptionTable Includer := ⟨[
  ⟨⟨"set-keyword", "kw", "Keyword that starts an include directive."⟩,
    fun value plugin => .ok { plugin with keyword := Text.trim value }⟩,
  ⟨⟨"set-removekeyword", "k",
      "Written in place of a directive line. Removed again by the cleanup pass."⟩,
    fun value plugin => .ok { plugin with removalKeyword := value }⟩,
  ⟨⟨"set-separator", "sep", "Separator recorded on scripts created for included files."⟩,
    fun value plugin => .ok { plugin with separator := value }⟩,
  ⟨⟨"set-order", "o",
      "Accepted for symmetry with line plugins. The includer has no line transform."⟩,
    fun value plugin =>
      (parseOption "set-order" value).map fun order => { plugin with order := order }⟩,
  ⟨⟨"set-stage", "ss",
      "Run the plugin \x60onload\x60 or \x60onfinishup\x60. Includes only take effect on load."⟩,
    fun value plugin =>
      (parseOption "set-stage" value).map fun phase => { plugin with phase := phase }⟩]⟩

/-- What is left of `cs` behind `front`, if it begins that way. -/
def behind? : List Char → List Char → Option (List Char)
  | [], cs => some cs
  | _ :: _, [] => none
  | f :: front, c :: cs => if f = c then behind? front cs else none

/-- The reference behind the keyword, if the characters of a line are a directive. Blanks around the
line do not count, and behind the keyword there must be a blank or nothing. -/
def directiveChars? (keyword line : List Char) : Option (List Char) :=
  match behind? keyword (Text.trimChars line) with
  | none => none
  | some [] => some []
  | some (c :: rest) => if Text.isBlank c then some (Text.trimChars (c :: rest)) else none

/-- The reference of a directive. -/
def directive? (plugin : Includer) (line : String) : Option String :=
  (directiveChars? plugin.keyword.toList line.toList).map String.ofList

/-- Takes in the script that the tokens of a reference lead to, or moves it to the end if it is
there. -/
def includeTokens (plugin : Includer) (context : Context) (tokens : List String) :
    EStateM Error Session Unit := fun session =>
  let script := context.script
  let resolution := session.sources.resolve tokens script.directory
  match resolution.key? with
  | none =>
    .ok () (session.note .warn "could not resolve include reference"
      [("reference", .bare (" ".intercalate tokens)), ("file", .quoted script.displayName)])
  | some key =>
    if session.sources.containsKey key then .ok () (session.moveToEnd key)
    else
      match resolution.path? with
      | none => .ok () session
      | some path =>
        if !context.files.isFile path then
          .ok () (session.note .warn "included file does not exist"
            [("path", .bare path.text), ("file", .quoted script.displayName)])
        else
          match context.files.readLines path with
          | .error e => .error e session
          | .ok lines =>
            match session.tryCreate? plugin.separator lines resolution with
            | (some created, session) => .ok () (session.enqueue created)
            | (none, session) => .ok () session

/-- Takes in a file that a pattern matched, unless it is the script the pattern is written in. -/
def includeMatch (plugin : Includer) (context : Context) (others : List String) (path : Path) :
    EStateM Error Session Unit := fun session =>
  let tokens := path.text :: others
  let resolution := session.sources.resolve tokens context.script.directory
  if resolution.key? = some context.script.key then .ok () session
  else plugin.includeTokens context tokens session

/-- Takes in all files that the pattern in the first token of a reference matches. -/
def includePattern (plugin : Includer) (context : Context) (reference first : String)
    (others : List String) : EStateM Error Session Unit := fun session =>
  match Text.unquote? first with
  | none => .ok () session
  | some pattern =>
    let path := context.script.directory.join ⟨pattern⟩
    match path.parent?, path.fileName? with
    | some directory, some name =>
      match context.files.list directory name with
      | .error e =>
        .ok () (session.note .warn "could not expand wildcard include"
          [("reference", .quoted reference), ("error", .bare e.message)])
      | .ok paths =>
        let session := session.addNotes (context.files.listNotes directory)
        if paths.isEmpty then
          .ok () (session.note .warn "wildcard include matched no files"
            [("reference", .quoted reference)])
        else paths.forM (plugin.includeMatch context others) session
    | _, _ =>
      .ok () (session.note .warn "wildcard include has no file name pattern"
        [("reference", .quoted reference)])

/-- Follows the reference of a directive. -/
def follow (plugin : Includer) (context : Context) (reference : String) :
    EStateM Error Session Unit := fun session =>
  match Reference.tokens reference with
  | [] =>
    .ok () (session.note .warn "include directive without a reference"
      [("file", .quoted context.script.displayName)])
  | first :: others =>
    if first.toList.contains '*' then plugin.includePattern context reference first others session
    else plugin.includeTokens context (first :: others) session

/-- Follows every directive among the lines and leaves the removal keyword in its place. -/
def transform (plugin : Includer) (context : Context) :
    List String → EStateM Error Session (List String)
  | [] => pure []
  | line :: rest =>
    match plugin.directive? line with
    | none => do
      let others ← transform plugin context rest
      return line :: others
    | some reference => do
      plugin.follow context reference
      let others ← transform plugin context rest
      return plugin.removalKeyword :: others

instance : Plugin Includer where
  name _ := "Includer"
  kind _ := .fullScript
  descriptor plugin := ⟨handles, plugin.order, plugin.phase, removalTokens plugin.removalKeyword⟩
  options _ := optionTable.infos
  configure settings _ plugin := fun session =>
    match optionTable.configure settings handles plugin with
    | .ok plugin => .ok plugin session
    | .error e => .error e session
  transformLine line plugin := (line, plugin, [])
  transformScript context lines := fun (plugin, session) =>
    match plugin.transform context lines session with
    | .ok lines session => .ok lines (plugin, session)
    | .error e session => .error e (plugin, session)

end Includer

end SourceWeave
