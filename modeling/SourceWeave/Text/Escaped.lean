import SourceWeave.Text.HiddenData
import SourceWeave.Text.Lowercase

/-!
# Texts in diagnostics

A text is shown between double quotes. Quotes and backslashes are preceded by a backslash, the usual
controls have their letter, and every other character without a visible form is written by its code
point. In a text that is shown without quotes only the controls that a terminal acts on are written
by their code points.
-/

namespace SourceWeave.Text

/-- Tells whether a character has no visible form of its own. -/
def isHidden (c : Char) : Bool :=
  c.toNat < 0x20 || inIntervals hiddenIntervals c.toNat

/-- A character as it is shown between double quotes. -/
def escapeChar (c : Char) : List Char :=
  if c = '\\' then ['\\', '\\']
  else if c = '\x22' then ['\\', '\x22']
  else if c = '\n' then ['\\', 'n']
  else if c = '\r' then ['\\', 'r']
  else if c = '\t' then ['\\', 't']
  else if c = '\x00' then ['\\', '0']
  else if isHidden c then ['\\', 'u', '\x7b'] ++ Nat.toDigits 16 c.toNat ++ ['\x7d']
  else [c]

/-- The text between double quotes. -/
def quote (text : String) : String :=
  String.ofList ('\x22' :: text.toList.flatMap escapeChar ++ ['\x22'])

/-- Texts shown as a bracketed list. -/
def quoteList (texts : List String) : String :=
  "[" ++ ", ".intercalate (texts.map quote) ++ "]"

/-- A character as it is shown to a terminal: a control that it acts on is written by its code. -/
def disarmChar (c : Char) : List Char :=
  if c = '\x07' || c = '\x08' || c = '\x0c' || c = '\x1b' || c = '\x7f' then
    let digits := Nat.toDigits 16 c.toNat
    ['\\', 'x'] ++ List.replicate (2 - digits.length) '0' ++ digits
  else if 0x80 ≤ c.toNat && c.toNat ≤ 0x9F then
    ['\\', 'u', '\x7b'] ++ Nat.toDigits 16 c.toNat ++ ['\x7d']
  else [c]

/-- The text as it is shown to a terminal. -/
def disarm (text : String) : String :=
  String.ofList (text.toList.flatMap disarmChar)

end SourceWeave.Text
