/-!
# Blank characters

The characters that count as blank between words, and the trimming built on them. The set is the
`White_Space` property: the controls from tab to carriage return, the blank, the next-line control,
and the spaces and separators of the later blocks. Zero-width characters and the byte order mark
are not blank.
-/

namespace SourceWeave.Text

/-- Tells whether a character is white space. -/
def isBlank (c : Char) : Bool :=
  let n := c.toNat
  (0x09 ≤ n && n ≤ 0x0D) || n == 0x20 || n == 0x85 || n == 0xA0 || n == 0x1680 ||
    (0x2000 ≤ n && n ≤ 0x200A) || n == 0x2028 || n == 0x2029 || n == 0x202F || n == 0x205F ||
    n == 0x3000

/-- Drops the blank characters at the front. -/
def trimStart (cs : List Char) : List Char :=
  cs.dropWhile isBlank

/-- Drops the blank characters at the end. -/
def trimEnd (cs : List Char) : List Char :=
  (cs.reverse.dropWhile isBlank).reverse

/-- Drops the blank characters at both ends. -/
def trimChars (cs : List Char) : List Char :=
  trimEnd (trimStart cs)

/-- The text without the blank characters at its ends. -/
def trim (text : String) : String :=
  String.ofList (trimChars text.toList)

@[simp]
theorem trimChars_nil : trimChars [] = [] := rfl

end SourceWeave.Text
