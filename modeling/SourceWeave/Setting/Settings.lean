import SourceWeave.Error
import SourceWeave.Text.Blank
import Std.Data.TreeMap

/-!
# Settings

The options set for a run: for the handle of a plugin, the values of its options. The last value set
for an option is the one that counts. On the command line a setting is written as
`handle:option=value`.
-/

namespace SourceWeave

/-- The options set for a run. -/
structure Settings where
  /-- For each handle, the value of each option set. -/
  entries : Std.TreeMap String (Std.TreeMap String String)

namespace Settings

/-- Nothing is set. -/
def empty : Settings := ⟨{}⟩

/-- The options set for a handle, with their values. -/
def group (settings : Settings) (handle : String) : Std.TreeMap String String :=
  settings.entries.getD handle {}

/-- Sets an option, in place of an earlier value. -/
def set (settings : Settings) (handle option value : String) : Settings :=
  ⟨settings.entries.insert handle ((settings.group handle).insert option value)⟩

/-- The value of an option. -/
def get? (settings : Settings) (handle option : String) : Option String :=
  (settings.group handle)[option]?

/-- The options set for a handle, in ascending order, with their values. -/
def optionsFor (settings : Settings) (handle : String) : List (String × String) :=
  (settings.group handle).toList

/-- Tells whether nothing is set. -/
def isEmpty (settings : Settings) : Bool :=
  settings.entries.isEmpty

/-- All that is set: handle, option and value, in ascending order. -/
def toList (settings : Settings) : List (String × String × String) :=
  settings.entries.toList.flatMap fun (handle, options) =>
    options.toList.map fun (option, value) => (handle, option, value)

/-- Sets some options of one handle, each in place of an earlier value. -/
def setGroup (settings : Settings) (handle : String) (options : Std.TreeMap String String) :
    Settings :=
  ⟨settings.entries.insert handle ((settings.group handle).insertMany options.toList)⟩

/-- Sets everything that `other` sets, handle by handle. -/
def merge (settings other : Settings) : Settings :=
  other.entries.toList.foldl (fun merged (handle, options) => merged.setGroup handle options)
    settings

/-- The part of a text before the first `mark` and the part behind it. -/
def cutAt? (mark : Char) (cs : List Char) : Option (List Char × List Char) :=
  match cs.dropWhile (· != mark) with
  | [] => none
  | _ :: rest => some (cs.takeWhile (· != mark), rest)

/-- Takes a setting written as `handle:option=value` apart. The value begins behind the first equals
sign and the option behind the first colon in front of it; blanks around the handle and the option
do not count, and neither may be empty. -/
def parseEntry? (entry : String) : Option (String × String × String) := do
  let (target, value) ← cutAt? '=' entry.toList
  let (handle, option) ← cutAt? ':' target
  let handle := Text.trimChars handle
  let option := Text.trimChars option
  if handle.isEmpty || option.isEmpty then none
  else some (String.ofList handle, String.ofList option, String.ofList value)

/-- Sets an option written as `handle:option=value`. -/
def setEntry (settings : Settings) (entry : String) : Except Error Settings :=
  match parseEntry? entry with
  | some (handle, option, value) => .ok (settings.set handle option value)
  | none => .error (.malformedSetting entry)

end Settings

end SourceWeave
