/-!
# JSON texts

Values written over several lines: two blanks for each level, the entries of an object in ascending
order of their names, and empty lists and objects on one line. In a string only quotes, backslashes
and control characters are escaped.
-/

namespace SourceWeave

/-- A value that is written as JSON. -/
inductive Json where
  /-- A string. -/
  | string (value : String)
  /-- A list of values. -/
  | array (items : List Json)
  /-- Named values. -/
  | object (entries : List (String × Json))

namespace Json

/-- A hexadecimal number of four digits. -/
def fourDigits (n : Nat) : List Char :=
  let digits := Nat.toDigits 16 n
  List.replicate (4 - digits.length) '0' ++ digits

/-- A character inside a string. -/
def escape (c : Char) : List Char :=
  if c = '\x22' then ['\\', '\x22']
  else if c = '\\' then ['\\', '\\']
  else if c = '\x08' then ['\\', 'b']
  else if c = '\x0c' then ['\\', 'f']
  else if c = '\n' then ['\\', 'n']
  else if c = '\r' then ['\\', 'r']
  else if c = '\t' then ['\\', 't']
  else if c.toNat < 0x20 then '\\' :: 'u' :: fourDigits c.toNat
  else [c]

/-- A string in quotes. -/
def quote (value : String) : String :=
  String.ofList ('\x22' :: value.toList.flatMap escape ++ ['\x22'])

/-- The start of a line at a level. -/
def newline (level : Nat) : String :=
  "\n" ++ String.ofList (List.replicate (2 * level) ' ')

mutual

/-- Writes a value that stands at a level. -/
def render (level : Nat) : Json → String
  | .string value => quote value
  | .array [] => "[]"
  | .array items => "[" ++ renderItems (level + 1) items ++ newline level ++ "]"
  | .object [] => "\x7b\x7d"
  | .object entries => "\x7b" ++ renderEntries (level + 1) entries ++ newline level ++ "\x7d"

/-- Writes the items of a list, each on lines of its own. -/
def renderItems (level : Nat) : List Json → String
  | [] => ""
  | [item] => newline level ++ render level item
  | item :: rest => newline level ++ render level item ++ "," ++ renderItems level rest

/-- Writes the entries of an object, each on lines of its own. -/
def renderEntries (level : Nat) : List (String × Json) → String
  | [] => ""
  | [(name, value)] => newline level ++ quote name ++ ": " ++ render level value
  | (name, value) :: rest =>
    newline level ++ quote name ++ ": " ++ render level value ++ "," ++ renderEntries level rest

end

/-- Writes a value over several lines. -/
def pretty (value : Json) : String :=
  value.render 0

/-- A list of strings. -/
def strings (values : List String) : Json :=
  .array (values.map .string)

end Json

end SourceWeave
