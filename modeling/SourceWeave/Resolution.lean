import SourceWeave.Path.Normal
import SourceWeave.Text.Escaped
import SourceWeave.Text.Quoted
import Std.Data.TreeMap

/-!
# Resolving references

A reference is a list of tokens, written somewhere in a directory. A scheme resolves it to a key,
which tells scripts apart, and a path, which tells where the text of the script is. A resolution may
carry further named values.
-/

namespace SourceWeave

/-- What became of a reference. -/
structure Resolution where
  /-- The named values. -/
  fields : Std.TreeMap String String
  /-- Whether the reference was resolved. -/
  success : Bool

namespace Resolution

/-- The name of the key among the values. -/
def keyField : String := "key"

/-- The name of the path among the values. -/
def pathField : String := "path"

/-- A reference that was not resolved. -/
def failed : Resolution := ⟨{}, false⟩

/-- Sets a named value. -/
def setValue (resolution : Resolution) (name value : String) : Resolution :=
  { resolution with fields := resolution.fields.insert name value }

/-- A named value. -/
def value? (resolution : Resolution) (name : String) : Option String :=
  resolution.fields[name]?

/-- A reference resolved to a key and a path. -/
def resolved (key : String) (path : Path) : Resolution :=
  { (failed.setValue keyField key).setValue pathField path.text with success := true }

/-- The key, if the reference was resolved. -/
def key? (resolution : Resolution) : Option String :=
  if resolution.success then resolution.value? keyField else none

/-- The path, if the reference was resolved. -/
def path? (resolution : Resolution) : Option Path :=
  if resolution.success then (resolution.value? pathField).map Path.mk else none

end Resolution

/-- A way to resolve references. -/
structure Scheme where
  /-- The name of the scheme. -/
  name : String
  /-- Resolves the tokens of a reference written in a directory. -/
  resolve : List String → Path → Resolution

namespace Scheme

/-- Resolves the first token to a normal path, which is also the key. -/
def resolvePathKey (cwd : Path) (tokens : List String) (directory : Path) : Resolution :=
  match tokens.head?.bind Text.unquote? with
  | none => .failed
  | some reference =>
    let path := (directory.join ⟨reference⟩).normalize cwd
    .resolved path.key path

/-- What the tokens stand for, if each of them stands for something. -/
def parameters? : List String → Option (List String)
  | [] => some []
  | token :: rest => do
    let parameter ← Text.unquote? token
    let others ← parameters? rest
    return parameter :: others

/-- The key of a script with parameters. -/
def parameterizedKey (base : String) (parameters : List String) : String :=
  base ++ "?" ++ ",".intercalate parameters

/-- Resolves the first token to a normal path, and puts the other tokens behind the key. -/
def resolveParameterized (cwd : Path) (tokens : List String) (directory : Path) : Resolution :=
  let base := resolvePathKey cwd tokens directory
  match base.key? with
  | none => base
  | some key =>
    match parameters? tokens.tail with
    | none => .failed
    | some [] => base
    | some parameters => base.setValue Resolution.keyField (parameterizedKey key parameters)

/-- The scheme in which key and path are both the normal path of the first token. -/
def pathKey (cwd : Path) : Scheme := ⟨"path_key", resolvePathKey cwd⟩

/-- The scheme in which further tokens distinguish scripts with the same path. -/
def parameterized (cwd : Path) : Scheme := ⟨"parameterized", resolveParameterized cwd⟩

/-- The scheme with its name. -/
def describe (scheme : Scheme) : String :=
  "ResolutionScheme \x7b name: " ++ Text.quote scheme.name ++ ", .. \x7d"

end Scheme

end SourceWeave
