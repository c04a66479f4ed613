import SourceWeave.Text.Blank
import SourceWeave.Text.Quoted

/-!
# Tokens of a reference

The text behind an include keyword is cut into tokens at its blanks. Blanks between quotes do not
cut; a backslash between quotes keeps the next character from closing them. Quotes and backslashes
stay in the token.
-/

namespace SourceWeave.Reference

/-- Where in a reference the reader stands. -/
inductive Mode where
  /-- Outside quotes. -/
  | outside
  /-- Between quotes of the given kind. -/
  | inside (mark : Char)
  /-- Behind a backslash between quotes of the given kind. -/
  | escaped (mark : Char)
deriving DecidableEq, Repr

/-- Where the reader stands behind one more character. -/
def Mode.next : Mode → Char → Mode
  | .outside, c => if Text.isQuote c then .inside c else .outside
  | .inside mark, c =>
    if c = '\\' then .escaped mark else if c = mark then .outside else .inside mark
  | .escaped mark, _ => .inside mark

/-- Tells whether a character ends a token. -/
def Mode.cuts : Mode → Char → Bool
  | .outside, c => Text.isBlank c
  | _, _ => false

/-- The token read so far, if there is one. `current` holds it with its last character first. -/
def flush (current : List Char) : List (List Char) :=
  if current.isEmpty then [] else [current.reverse]

/-- Cuts the rest of a reference into tokens. -/
def tokensFrom (mode : Mode) (current : List Char) : List Char → List (List Char)
  | [] => flush current
  | c :: rest =>
    if mode.cuts c then flush current ++ tokensFrom mode [] rest
    else tokensFrom (mode.next c) (c :: current) rest

/-- The tokens of a reference. -/
def tokens (reference : String) : List String :=
  (tokensFrom .outside [] reference.toList).map String.ofList

end SourceWeave.Reference
