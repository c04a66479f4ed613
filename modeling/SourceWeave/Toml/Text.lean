import SourceWeave.Text.Quoted

/-!
# Texts in TOML

A text stands between single or double quotes, or between three of them if it has several lines. Its
extent is found first, and then its characters are read one at a time. Between double quotes a
backslash starts an escape; in a text of several lines a backslash at the end of a line joins it to
the next one.
-/

namespace SourceWeave.Toml

/-- Tells whether a character may not stand in a document except as part of a line ending. -/
def isControl (c : Char) : Bool :=
  (c.toNat < 0x20 && c != '\t') || c.toNat == 0x7F

/-- The inside of a text on one line and what follows its closing mark. A backslash keeps the next
character from closing the text if there are escapes. -/
def lineExtent (mark : Char) (escapes escaped : Bool) : List Char → Option (List Char × List Char)
  | [] => none
  | c :: rest =>
    if c = mark && !escaped then some ([], rest)
    else
      (lineExtent mark escapes (escapes && !escaped && c = '\\') rest).map fun (inside, behind) =>
        (c :: inside, behind)

/-- How many of the next characters are the mark. -/
def countMarks (mark : Char) (cs : List Char) : Nat :=
  (cs.takeWhile (· = mark)).length

/-- The inside of a text of several lines and what follows its three closing marks. One or two marks
in front of these belong to the text. -/
def blockExtent (mark : Char) (escapes escaped : Bool) : List Char → Option (List Char × List Char)
  | [] => none
  | c :: rest =>
    let marks := countMarks mark (c :: rest)
    if !escaped && marks ≥ 3 then
      let kept := min (marks - 3) 2
      some (List.replicate kept mark, (c :: rest).drop (kept + 3))
    else
      (blockExtent mark escapes (escapes && !escaped && c = '\\') rest).map fun (inside, behind) =>
        (c :: inside, behind)

/-- How the inside of a text is read. -/
structure TextForm where
  /-- Whether a backslash starts an escape. -/
  escapes : Bool
  /-- Whether the text may have several lines. -/
  block : Bool

/-- Where in the inside of a text the reader stands. -/
inductive TextMode where
  /-- Among its characters. -/
  | plain
  /-- Behind a carriage return. -/
  | afterReturn
  /-- Behind a backslash. -/
  | escape
  /-- In the digits of an escape: how many are missing, and the number read so far. -/
  | digits (missing value : Nat)
  /-- Between lines that are being joined; tells whether a line ending was met. -/
  | joining (ended : Bool)
  /-- Behind a carriage return between lines that are being joined. -/
  | joiningReturn

/-- Reads a character of the text itself. -/
def plainStep (form : TextForm) (c : Char) : Option (TextMode × List Char) :=
  if c = '\\' && form.escapes then some (.escape, [])
  else if c = '\r' && form.block then some (.afterReturn, [])
  else if c = '\n' && form.block then some (.plain, ['\n'])
  else if isControl c then none
  else some (.plain, [c])

/-- Reads the character behind a backslash. -/
def escapeStep (form : TextForm) (c : Char) : Option (TextMode × List Char) :=
  match c with
  | 'b' => some (.plain, ['\x08'])
  | 't' => some (.plain, ['\t'])
  | 'n' => some (.plain, ['\n'])
  | 'f' => some (.plain, ['\x0c'])
  | 'r' => some (.plain, ['\r'])
  | 'e' => some (.plain, ['\x1b'])
  | '\x22' => some (.plain, ['\x22'])
  | '\\' => some (.plain, ['\\'])
  | 'x' => some (.digits 2 0, [])
  | 'u' => some (.digits 4 0, [])
  | 'U' => some (.digits 8 0, [])
  | ' ' => if form.block then some (.joining false, []) else none
  | '\t' => if form.block then some (.joining false, []) else none
  | '\n' => if form.block then some (.joining true, []) else none
  | '\r' => if form.block then some (.joiningReturn, []) else none
  | _ => none

/-- Reads one character of the inside of a text. -/
def textStep (form : TextForm) : TextMode → Char → Option (TextMode × List Char)
  | .plain, c => plainStep form c
  | .afterReturn, c => if c = '\n' then some (.plain, ['\r', '\n']) else none
  | .escape, c => escapeStep form c
  | .digits missing value, c => do
    let digit ← Text.hexValue? c
    let value := 16 * value + digit
    if missing ≤ 1 then
      let decoded ← Text.charOfNat? value
      return (.plain, [decoded])
    else return (.digits (missing - 1) value, [])
  | .joining ended, c =>
    if c = ' ' || c = '\t' then some (.joining ended, [])
    else if c = '\n' then some (.joining true, [])
    else if c = '\r' then some (.joiningReturn, [])
    else if ended then plainStep form c
    else none
  | .joiningReturn, c => if c = '\n' then some (.joining true, []) else none

/-- Reads the rest of the inside of a text. -/
def decodeFrom (form : TextForm) : TextMode → List Char → Option (List Char)
  | .plain, [] => some []
  | .joining true, [] => some []
  | _, [] => none
  | mode, c :: rest => do
    let (next, out) ← textStep form mode c
    let others ← decodeFrom form next rest
    return out ++ others

/-- A line ending directly behind the opening marks of a text does not belong to it. -/
def dropFirstEnding : List Char → List Char
  | '\n' :: rest => rest
  | '\r' :: '\n' :: rest => rest
  | cs => cs

/-- Reads a text on one line whose opening mark has been read. -/
def readLineText (mark : Char) (cs : List Char) : Option (String × List Char) := do
  let form : TextForm := ⟨mark = '\x22', false⟩
  let (inside, behind) ← lineExtent mark form.escapes false cs
  let decoded ← decodeFrom form .plain inside
  return (String.ofList decoded, behind)

/-- Reads a text of several lines whose three opening marks have been read. -/
def readBlockText (mark : Char) (cs : List Char) : Option (String × List Char) := do
  let form : TextForm := ⟨mark = '\x22', true⟩
  let (inside, behind) ← blockExtent mark form.escapes false cs
  let decoded ← decodeFrom form .plain (dropFirstEnding inside)
  return (String.ofList decoded, behind)

end SourceWeave.Toml
