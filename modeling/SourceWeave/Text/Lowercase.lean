import SourceWeave.Text.CaseData

/-!
# Lower-casing

Every character is replaced by its lower-case form. Two characters need more than a table: a capital
I with a dot becomes two characters, and a capital sigma becomes a final sigma where it ends a word,
that is, where a cased letter stands before it and none behind it, with the characters that do not
matter for case passed over on both sides.
-/

namespace SourceWeave.Text

/-- Tells whether a code point lies in one of the intervals. -/
def inIntervals (intervals : List (Nat × Nat)) (n : Nat) : Bool :=
  intervals.any fun (first, last) => first ≤ n && n ≤ last

/-- Tells whether a character has case. -/
def isCased (c : Char) : Bool :=
  inIntervals casedIntervals c.toNat

/-- Tells whether a character is passed over in the search for a cased neighbour. -/
def isCaseIgnorable (c : Char) : Bool :=
  inIntervals ignorableIntervals c.toNat

/-- The lower-case form of a code point whose form is a single character. -/
def lowerCode (n : Nat) : Nat :=
  match lowerRuns.find? fun (first, last, step, _) =>
    first ≤ n && n ≤ last && (n - first) % step == 0 with
  | some (first, _, _, target) => target + (n - first)
  | none => n

/-- The lower-case form of a character that stands alone. -/
def lowerChar (c : Char) : List Char :=
  if c.toNat = 0x130 then ['i', Char.ofNat 0x307] else [Char.ofNat (lowerCode c.toNat)]

/-- Tells whether the first character that matters for case is a cased one. -/
def meetsCased (cs : List Char) : Bool :=
  match cs.dropWhile isCaseIgnorable with
  | [] => false
  | c :: _ => isCased c

/-- Lower-cases the characters that follow `before`, which holds what was already passed, the
nearest character first. -/
def lowerFrom (before : List Char) : List Char → List Char
  | [] => []
  | c :: rest =>
    let lowered :=
      if c.toNat = 0x3A3 then
        if meetsCased before && !meetsCased rest then [Char.ofNat 0x3C2] else [Char.ofNat 0x3C3]
      else lowerChar c
    lowered ++ lowerFrom (c :: before) rest

/-- The text in lower case. -/
def lowercase (text : String) : String :=
  String.ofList (lowerFrom [] text.toList)

/-- Lower-cases the letters from `A` to `Z` and leaves every other character alone. -/
def lowercaseLatin (text : String) : String :=
  String.ofList (text.toList.map Char.toLower)

end SourceWeave.Text
