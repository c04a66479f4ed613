/-!
# TOML values

A TOML document is a table of values. How a table came to be decides which later lines may add to
it: a table written in braces takes no more, one opened by a header may not be opened again or
reached by a dotted key, and one made by dotted keys may not be opened. A table that was made on the
way to a longer header counts as made by dotted keys once a dotted key leads through it.
-/

namespace SourceWeave.Toml

/-- How a table came to be. -/
inductive TableKind where
  /-- Opened by its header, or the document itself. -/
  | header
  /-- Made on the way to a table with a longer header. -/
  | implied
  /-- Made or reached by a dotted key. -/
  | dotted
  /-- Written in braces. -/
  | inline
deriving DecidableEq, Repr

/-- What a table becomes when a path leads through it. -/
def TableKind.onPath (kind : TableKind) (dotted : Bool) : TableKind :=
  if dotted && kind = .implied then .dotted else kind

/-- A value of a document. The values of numbers with a fraction are not kept. -/
inductive Value where
  /-- A text. -/
  | text (value : String)
  /-- A whole number. -/
  | integer (value : Int)
  /-- A number with a fraction or an exponent, or one of the special numbers. -/
  | float
  /-- A truth value. -/
  | boolean (value : Bool)
  /-- A date, a time, or both, in the usual writing. -/
  | moment (value : String)
  /-- A list of values. -/
  | array (items : List Value)
  /-- Tables opened by headers in double brackets. -/
  | tables (items : List (List (String × Value)))
  /-- A table. -/
  | table (kind : TableKind) (entries : List (String × Value))
deriving Repr

/-- The entries of a table, in the order in which they were made. -/
abbrev Entries := List (String × Value)

namespace Entries

/-- The value of a key. -/
def get? (entries : Entries) (key : String) : Option Value :=
  (entries.find? (·.1 == key)).map (·.2)

/-- The entries with the value of a key replaced, or added at the end. -/
def put (entries : Entries) (key : String) (value : Value) : Entries :=
  if entries.any (·.1 == key) then
    entries.map fun entry => if entry.1 == key then (key, value) else entry
  else entries ++ [(key, value)]

/-- Changes the table at the end of a path, and makes the tables that lead to it. The path is one of
a dotted key or of a header, and it may not lead through a value that takes no more entries. -/
def update (dotted : Bool) (change : TableKind → Entries → Option Entries) :
    List String → TableKind → Entries → Option Entries
  | [], kind, entries => change kind entries
  | key :: rest, _, entries =>
    match get? entries key with
    | none =>
      let kind := if dotted then .dotted else .implied
      (update dotted change rest kind []).map fun inner => put entries key (.table kind inner)
    | some (.table kind inner) =>
      if kind = .inline || (dotted && kind = .header) then none
      else
        let kind := kind.onPath dotted
        (update dotted change rest kind inner).map fun inner => put entries key (.table kind inner)
    | some (.tables items) =>
      match items.reverse with
      | [] => none
      | last :: others =>
        (update dotted change rest .header last).map fun inner =>
          put entries key (.tables (inner :: others).reverse)
    | some _ => none

/-- Adds the value of a key that may be dotted. -/
def addPair (path : List String) (key : String) (value : Value) :
    TableKind → Entries → Option Entries :=
  let dotted := !path.isEmpty
  update dotted (fun kind entries =>
    if dotted != (kind == .dotted) || (get? entries key).isSome then none
    else some (entries ++ [(key, value)])) path

/-- Opens the table of a header. -/
def openTable (path : List String) (key : String) : TableKind → Entries → Option Entries :=
  update false (fun _ entries =>
    match get? entries key with
    | none => some (put entries key (.table .header []))
    | some (.table .implied inner) => some (put entries key (.table .header inner))
    | some _ => none) path

/-- Opens one more table of a header in double brackets. -/
def openTableOfList (path : List String) (key : String) : TableKind → Entries → Option Entries :=
  update false (fun _ entries =>
    match get? entries key with
    | none => some (put entries key (.tables [[]]))
    | some (.tables items) => some (put entries key (.tables (items ++ [[]])))
    | some _ => none) path

end Entries

end SourceWeave.Toml
