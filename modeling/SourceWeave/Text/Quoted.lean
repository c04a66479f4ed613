import SourceWeave.Text.Blank

/-!
# Quoted tokens

A token may be written with parts of it between quotes. Nothing is escaped outside quotes or between
single quotes; between double quotes a backslash starts an escape, which is one of a fixed set of
letters and signs or a code point between braces. Quotes may open and close any number of times and
need not be closed.
-/

namespace SourceWeave.Text

/-- Where in a quoted token the reader stands. -/
inductive QuoteMode where
  /-- Outside all quotes. -/
  | outside
  /-- Between single quotes. -/
  | single
  /-- Between double quotes. -/
  | double
  /-- Behind a backslash between double quotes. -/
  | escape
  /-- Behind the `u` of an escape, where a brace must follow. -/
  | brace
  /-- Inside the braces of an escape; holds what was read there, the last character first. -/
  | code (read : List Char)
deriving DecidableEq, Repr

/-- The character that a one-letter escape stands for. -/
def escapedChar? : Char → Option Char
  | 'a' => some '\x07'
  | 'b' => some '\x08'
  | 'v' => some '\x0b'
  | 'f' => some '\x0c'
  | 'n' => some '\n'
  | 'r' => some '\r'
  | 't' => some '\t'
  | 'e' => some '\x1b'
  | 'E' => some '\x1b'
  | '\\' => some '\\'
  | '\x27' => some '\x27'
  | '\x22' => some '\x22'
  | '$' => some '$'
  | '\x60' => some '\x60'
  | ' ' => some ' '
  | _ => none

/-- The value of a hexadecimal digit. -/
def hexValue? (c : Char) : Option Nat :=
  if c.isDigit then some (c.toNat - '0'.toNat)
  else if 'a' ≤ c ∧ c ≤ 'f' then some (c.toNat - 'a'.toNat + 10)
  else if 'A' ≤ c ∧ c ≤ 'F' then some (c.toNat - 'A'.toNat + 10)
  else none

/-- The number that hexadecimal digits write, most significant first. -/
def hexNumber? (cs : List Char) : Option Nat :=
  cs.foldlM (fun n c => (hexValue? c).map (16 * n + ·)) 0

/-- The character with a given number, if there is one. -/
def charOfNat? (n : Nat) : Option Char :=
  if n.isValidChar then some (Char.ofNat n) else none

/-- The character whose number is written between the braces of an escape. The number may have a
plus sign and needs at least one digit. -/
def charOfHex? (cs : List Char) : Option Char :=
  let digits := match cs with
    | '+' :: rest => rest
    | _ => cs
  if digits.isEmpty then none else (hexNumber? digits).bind charOfNat?

/-- Reads a quoted token, or gives up at the first escape that stands for nothing. -/
def unescape : QuoteMode → List Char → Option (List Char)
  | .outside, [] => some []
  | .single, [] => some []
  | .double, [] => some []
  | .escape, [] => none
  | .brace, [] => none
  | .code read, [] => (charOfHex? read.reverse).map ([·])
  | .outside, c :: rest =>
    if c = '\x27' then unescape .single rest
    else if c = '\x22' then unescape .double rest
    else (unescape .outside rest).map (c :: ·)
  | .single, c :: rest =>
    if c = '\x27' then unescape .outside rest else (unescape .single rest).map (c :: ·)
  | .double, c :: rest =>
    if c = '\x22' then unescape .outside rest
    else if c = '\\' then unescape .escape rest
    else (unescape .double rest).map (c :: ·)
  | .escape, c :: rest =>
    if c = 'u' then unescape .brace rest
    else (escapedChar? c).bind fun e => (unescape .double rest).map (e :: ·)
  | .brace, c :: rest => if c = '\x7b' then unescape (.code []) rest else none
  | .code read, c :: rest =>
    if c = '\x7d' then
      (charOfHex? read.reverse).bind fun e => (unescape .double rest).map (e :: ·)
    else unescape (.code (c :: read)) rest

/-- Tells whether a character is a quote. -/
def isQuote (c : Char) : Bool :=
  c == '\x22' || c == '\x27'

/-- The text that a token stands for. A token that begins with a quote is read as a quoted one; any
other stands for itself without the blanks around it. There is none if nothing is left or an escape
stands for nothing. -/
def unquote? (token : String) : Option String :=
  let trimmed := trimChars token.toList
  let value? := match trimmed with
    | c :: _ => if isQuote c then unescape .outside trimmed else some trimmed
    | [] => some []
  match value? with
  | some (c :: rest) => some (String.ofList (c :: rest))
  | _ => none

end SourceWeave.Text
