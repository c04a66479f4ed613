import SourceWeave.Toml.Reader

/-!
# TOML documents

A document is a sequence of lines, each of which is empty, opens a table, or gives a value to a key
of the table that was opened last.
-/

namespace SourceWeave.Toml

/-- The tables read so far. -/
structure Draft where
  /-- The entries of the document. -/
  entries : Entries
  /-- The path of the table that was opened last. -/
  header : List String

namespace Draft

/-- An empty document. -/
def empty : Draft := ⟨[], []⟩

/-- Gives a value to a key of the table that was opened last. -/
def addPair (draft : Draft) (parts : List String) (value : Value) : Option Draft := do
  let (path, key) := splitKey parts
  let entries ←
    Entries.update false (Entries.addPair path key value) draft.header .header draft.entries
  return { draft with entries := entries }

/-- Opens a table. -/
def openTable (draft : Draft) (parts : List String) : Option Draft := do
  let (path, key) := splitKey parts
  let entries ← Entries.openTable path key .header draft.entries
  return ⟨entries, parts⟩

/-- Opens one more table of a list of tables. -/
def openTableOfList (draft : Draft) (parts : List String) : Option Draft := do
  let (path, key) := splitKey parts
  let entries ← Entries.openTableOfList path key .header draft.entries
  return ⟨entries, parts⟩

end Draft

/-- Passes over the end of a line: blanks, a comment, and the line ending or the end of the text. -/
def endLine (cs : List Char) : Option (List Char) := do
  match ← skipComment (skipSpaces cs) with
  | [] => some []
  | '\n' :: rest => some rest
  | '\r' :: '\n' :: rest => some rest
  | _ => none

/-- Reads one line that is not empty. -/
def readStatement (draft : Draft) (cs : List Char) : Option (Draft × List Char) :=
  match cs with
  | '[' :: '[' :: rest => do
    let rest := skipSpaces rest
    let (parts, rest) ← readKey rest
    match rest with
    | ']' :: ']' :: rest => do
      let draft ← draft.openTableOfList parts
      return (draft, rest)
    | _ => none
  | '[' :: rest => do
    let rest := skipSpaces rest
    let (parts, rest) ← readKey rest
    match rest with
    | ']' :: rest => do
      let draft ← draft.openTable parts
      return (draft, rest)
    | _ => none
  | _ => do
    let (parts, rest) ← readKey cs
    match rest with
    | '=' :: rest => do
      let (value, rest) ← readValue (2 * rest.length + 2) 0 (skipSpaces rest)
      let draft ← draft.addPair parts value
      return (draft, rest)
    | _ => none

/-- Reads the lines of a document, `work` of them at most. -/
def readLines : Nat → Draft → List Char → Option Entries
  | 0, _, _ => none
  | work + 1, draft, cs => do
    let cs ← skipLines false cs
    if cs.isEmpty then return draft.entries
    else
      let (draft, rest) ← readStatement draft cs
      let rest ← endLine rest
      readLines work draft rest

/-- Passes over a byte order mark. -/
def skipMark : List Char → List Char
  | '\ufeff' :: rest => rest
  | cs => cs

/-- Reads a document. -/
def read? (text : String) : Option Entries :=
  let cs := skipMark text.toList
  readLines (cs.length + 1) Draft.empty cs

end SourceWeave.Toml
