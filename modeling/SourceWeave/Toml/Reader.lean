import SourceWeave.Toml.Scalar
import SourceWeave.Toml.Text

/-!
# Reading TOML values

Values in brackets and braces hold further values, so the reader is recursive. It is given an amount
of work that grows with the length of the text, and each step uses some of it up; and it refuses
values that are nested too deeply and keys with too many parts.
-/

namespace SourceWeave.Toml

/-- Tells whether a character separates words on a line. -/
def isSpace (c : Char) : Bool :=
  c == ' ' || c == '\t'

/-- Passes over blanks on a line. -/
def skipSpaces (cs : List Char) : List Char :=
  cs.dropWhile isSpace

/-- Passes over a comment up to the line ending, if there is one. -/
def skipComment (cs : List Char) : Option (List Char) :=
  match cs with
  | '#' :: rest =>
    let behind := rest.dropWhile fun c => !isControl c
    match behind with
    | [] => some []
    | '\n' :: _ => some behind
    | '\r' :: '\n' :: _ => some behind
    | _ => none
  | _ => some cs

/-- Passes over blanks, comments and line endings. `inComment` tells whether a comment is being
passed over. -/
def skipLines (inComment : Bool) : List Char → Option (List Char)
  | [] => some []
  | '\n' :: rest => skipLines false rest
  | '\r' :: '\n' :: rest => skipLines false rest
  | c :: rest =>
    if inComment then if isControl c then none else skipLines true rest
    else if isSpace c then skipLines false rest
    else if c = '#' then skipLines true rest
    else some (c :: rest)

/-- Tells whether a character can be part of a key that is not in quotes. -/
def isKeyChar (c : Char) : Bool :=
  c.isAlphanum || c == '_' || c == '-'

/-- Reads one part of a key. -/
def readKeyPart (cs : List Char) : Option (String × List Char) :=
  match cs with
  | '\x22' :: rest => readLineText '\x22' rest
  | '\x27' :: rest => readLineText '\x27' rest
  | _ =>
    let part := cs.takeWhile isKeyChar
    if part.isEmpty then none else some (String.ofList part, cs.dropWhile isKeyChar)

/-- Reads the parts of a key, `limit` of them at most, with dots between them. Blanks around the
dots do not count. -/
def readKeyParts : Nat → List Char → Option (List String × List Char)
  | 0, _ => none
  | limit + 1, cs => do
    let (part, rest) ← readKeyPart cs
    match skipSpaces rest with
    | '.' :: behind => do
      let (others, rest) ← readKeyParts limit (skipSpaces behind)
      return (part :: others, rest)
    | rest => return ([part], rest)

/-- How deeply values may be nested, and how many parts a key may have. -/
def depthLimit : Nat := 80

/-- Reads a key. -/
def readKey (cs : List Char) : Option (List String × List Char) :=
  readKeyParts depthLimit cs

/-- The path in front of the last part of a key, and the last part. -/
def splitKey (parts : List String) : List String × String :=
  (parts.dropLast, parts.getLast?.getD "")

mutual

/-- Reads a value. -/
def readValue : Nat → Nat → List Char → Option (Value × List Char)
  | 0, _, _ => none
  | work + 1, depth, cs =>
    match cs with
    | '\x22' :: '\x22' :: '\x22' :: rest =>
      (readBlockText '\x22' rest).map fun (text, rest) => (.text text, rest)
    | '\x27' :: '\x27' :: '\x27' :: rest =>
      (readBlockText '\x27' rest).map fun (text, rest) => (.text text, rest)
    | '\x22' :: rest => (readLineText '\x22' rest).map fun (text, rest) => (.text text, rest)
    | '\x27' :: rest => (readLineText '\x27' rest).map fun (text, rest) => (.text text, rest)
    | '[' :: rest =>
      if depthLimit ≤ depth then none
      else (readItems work (depth + 1) rest).map fun (items, rest) => (.array items, rest)
    | '\x7b' :: rest =>
      if depthLimit ≤ depth then none
      else
        (readPairs work (depth + 1) [] rest).map fun (entries, rest) =>
          (.table .inline entries, rest)
    | _ => readScalar cs

/-- Reads the values of a list up to its closing bracket. -/
def readItems : Nat → Nat → List Char → Option (List Value × List Char)
  | 0, _, _ => none
  | work + 1, depth, cs => do
    let cs ← skipLines false cs
    match cs with
    | ']' :: rest => return ([], rest)
    | _ => do
      let (value, rest) ← readValue work depth cs
      let rest ← skipLines false rest
      match rest with
      | ',' :: behind => do
        let (others, rest) ← readItems work depth behind
        return (value :: others, rest)
      | ']' :: rest => return ([value], rest)
      | _ => none

/-- Reads the entries of a table in braces up to the closing one. There may be line endings on
either side of an equals sign. -/
def readPairs : Nat → Nat → Entries → List Char → Option (Entries × List Char)
  | 0, _, _, _ => none
  | work + 1, depth, entries, cs => do
    let cs ← skipLines false cs
    match cs with
    | '\x7d' :: rest => return (entries, rest)
    | _ => do
      let (parts, rest) ← readKey cs
      let rest ← skipLines false rest
      match rest with
      | '=' :: behind => do
        let behind ← skipLines false behind
        let (value, rest) ← readValue work depth behind
        let (path, key) := splitKey parts
        let entries ← Entries.addPair path key value .inline entries
        let rest ← skipLines false rest
        match rest with
        | ',' :: behind => readPairs work depth entries behind
        | '\x7d' :: rest => return (entries, rest)
        | _ => none
      | _ => none

end

end SourceWeave.Toml
