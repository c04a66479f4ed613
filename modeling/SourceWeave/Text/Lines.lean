/-!
# Lines of a text

A line ends with a line feed, a carriage return, or the two in that order. Splitting first writes
every terminator as a single line feed and then cuts there; a terminator at the very end of the
text does not open another line.
-/

namespace SourceWeave.Text

/-- Writes every line terminator as a single line feed. -/
def unifyEndings : List Char → List Char
  | [] => []
  | '\r' :: '\n' :: rest => '\n' :: unifyEndings rest
  | '\r' :: rest => '\n' :: unifyEndings rest
  | c :: rest => c :: unifyEndings rest

/-- Cuts a text at its line feeds. A line feed at the end opens no further line. -/
def cutLines : List Char → List (List Char)
  | [] => []
  | c :: rest =>
    if c = '\n' then [] :: cutLines rest
    else
      match cutLines rest with
      | [] => [[c]]
      | line :: lines => (c :: line) :: lines

/-- The text with every line terminator written as a line feed. -/
def normalizeEndings (text : String) : String :=
  String.ofList (unifyEndings text.toList)

/-- The lines of a text, without their terminators. -/
def splitLines (text : String) : List String :=
  (cutLines (unifyEndings text.toList)).map String.ofList

/-- The lines written one after another with `separator` between them. -/
def joinWith (separator : String) (lines : List String) : String :=
  separator.intercalate lines

end SourceWeave.Text
