import SourceWeave.Plugin.Includer

/-!
# The blank line remover

The plugin leaves a line for the clean-up in place of every blank line.
-/

namespace SourceWeave

/-- The plugin that marks blank lines for removal. -/
structure BlankLineRemover where
  /-- The line that takes the place of a blank one. -/
  removalKeyword : String := defaultRemovalKeyword
  /-- Where the line transform stands. -/
  order : LineOrder := .after
  /-- The phase in which the plugin runs. -/
  phase : Phase := .onFinishUp
deriving DecidableEq, Repr

namespace BlankLineRemover

/-- The handles of the blank line remover. -/
def handles : List String := ["blr", "BLRemover"]

/-- The options of the blank line remover. -/
def optionTable : OptionTable BlankLineRemover := ⟨[
  ⟨⟨"set-removekeyword", "k",
      "Inserted whenever a blank line is detected. Removed again by the cleanup pass."⟩,
    fun value plugin => .ok { plugin with removalKeyword := value }⟩,
  ⟨⟨"set-order", "o",
      "Run the line transform \x60before\x60 or \x60after\x60 the full-script transforms."⟩,
    fun value plugin =>
      (parseOption "set-order" value).map fun order => { plugin with order := order }⟩,
  ⟨⟨"set-stage", "ss", "Run the plugin \x60onload\x60 or \x60onfinishup\x60."⟩,
    fun value plugin =>
      (parseOption "set-stage" value).map fun phase => { plugin with phase := phase }⟩]⟩

/-- Tells whether a line holds nothing but blanks. -/
def isBlankLine (line : String) : Bool :=
  (Text.trimChars line.toList).isEmpty

instance : Plugin BlankLineRemover where
  name _ := "BlankLineRemover"
  kind _ := .line
  descriptor plugin := ⟨handles, plugin.order, plugin.phase, removalTokens plugin.removalKeyword⟩
  options _ := optionTable.infos
  configure settings _ plugin := fun session =>
    match optionTable.configure settings handles plugin with
    | .ok plugin => .ok plugin session
    | .error e => .error e session
  transformLine line plugin :=
    if isBlankLine line then
      (plugin.removalKeyword, plugin,
        [⟨.trace, "marked blank line for removal", [("keyword", .bare plugin.removalKeyword)]⟩])
    else (line, plugin, [])
  transformScript _ lines := pure lines

end BlankLineRemover

end SourceWeave
