/-!
# Glob patterns

A glob is a list of tokens. A literal character matches its own encoding; `?` matches one byte and
`*` any number of them; a bracketed class matches one byte; a group in braces matches any of its
branches. A double star at the edge of a path segment stands for whole directories.
-/

namespace SourceWeave.Glob

/-- One token of a glob. -/
inductive Token where
  /-- A character that matches itself. -/
  | literal (c : Char)
  /-- Any one byte. -/
  | anyByte
  /-- Any number of bytes. -/
  | anyBytes
  /-- Nothing, or directories up to a slash, at the start of a pattern. -/
  | leadingDirectories
  /-- Everything below a directory, at the end of a pattern. -/
  | trailingDirectories
  /-- One or more slashes with directories between them. -/
  | innerDirectories
  /-- One byte inside the ranges, or outside them when negated. -/
  | oneOf (negated : Bool) (ranges : List (Char × Char))
  /-- Any of the branches. -/
  | group (branches : List (List Token))
deriving Repr, Inhabited

/-- What can be wrong with the text of a glob. -/
inductive Fault where
  /-- A class without its closing bracket. -/
  | unclosedClass
  /-- A range whose end lies before its start. -/
  | invalidRange (first last : Char)
  /-- A closing brace without an opening one. -/
  | unopenedGroup
  /-- An opening brace without a closing one. -/
  | unclosedGroup
  /-- A backslash at the end. -/
  | danglingEscape
deriving DecidableEq, Repr

/-- The wording of a fault. -/
def Fault.describe : Fault → String
  | .unclosedClass => "unclosed character class; missing ']'"
  | .invalidRange first last =>
    "invalid range; '" ++ first.toString ++ "' > '" ++ last.toString ++ "'"
  | .unopenedGroup =>
    "unopened alternate group; missing '\x7b' (maybe escape '\x7d' with '[\x7d]'?)"
  | .unclosedGroup =>
    "unclosed alternate group; missing '\x7d' (maybe escape '\x7b' with '[\x7b]'?)"
  | .danglingEscape => "dangling '\\'"

/-- The message for a fault in `pattern`. -/
def Fault.message (pattern : String) (fault : Fault) : String :=
  "error parsing glob '" ++ pattern ++ "': " ++ fault.describe

end SourceWeave.Glob
