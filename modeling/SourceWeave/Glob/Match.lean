import SourceWeave.Glob.Basic

/-!
# Matching globs

A name is matched from its front to its end, one token of the glob after the other. What is kept is
the set of places in the name up to which the tokens so far can match; each token makes a new set of
places from the one before it. A name matches a glob if its end is among the places of the whole
glob. Names and literals are compared by their encoding, so a token that stands for one byte matches
only a part of a character outside ASCII.
-/

namespace SourceWeave.Glob

/-- The encoding of a text, byte by byte. -/
def bytesOf (text : String) : List UInt8 :=
  text.toList.flatMap String.utf8EncodeChar

/-- A set of places in a name. There is a place in front of each byte and one at the end, and for
each of them in turn it is told whether it belongs to the set. -/
abbrev Places := List Bool

namespace Places

/-- The place in front of all bytes. -/
def front (bytes : List UInt8) : Places :=
  true :: bytes.map fun _ => false

/-- No place. -/
def none (bytes : List UInt8) : Places :=
  false :: bytes.map fun _ => false

/-- Tells whether the end of the name belongs to the set. -/
def hasEnd (places : Places) : Bool :=
  places.getLast? == some true

/-- The places of two sets. -/
def union (places others : Places) : Places :=
  List.zipWith (· || ·) places others

/-- The places behind a byte that is accepted and has a place of the set in front of it. -/
def behind (accept : UInt8 → Bool) (bytes : List UInt8) (places : Places) : Places :=
  false :: List.zipWith (fun b here => here && accept b) bytes places

/-- All places from the first one of the set on. `reached` tells whether that one has been passed.
-/
def onwards (reached : Bool) : Places → Places
  | [] => []
  | here :: rest => (reached || here) :: onwards (reached || here) rest

/-- The places behind the bytes of a character. -/
def behindChar (c : Char) (bytes : List UInt8) (places : Places) : Places :=
  (String.utf8EncodeChar c).foldl (fun places x => behind (· == x) bytes places) places

/-- The places of the set, and those behind a slash that follows one of them. -/
def orBehindSlash (bytes : List UInt8) (places : Places) : Places :=
  union places (behindChar '/' bytes (onwards false places))

end Places

/-- Tells whether a byte belongs to the range from `first` to `last`. Where the two are characters
of several bytes, the range spans the last byte of the one and the first byte of the other, and
their other bytes are members on their own. -/
def inRange (first last : Char) (b : UInt8) : Bool :=
  let low := String.utf8EncodeChar first
  let high := String.utf8EncodeChar last
  if first = last then low.contains b
  else
    low.dropLast.contains b || high.tail.contains b ||
      match low.getLast?, high.head? with
      | some x, some y => x ≤ b && b ≤ y
      | _, _ => false

mutual

/-- Tells whether a token is a group in which nothing is written. -/
def Token.isSilent : Token → Bool
  | .group branches => allSilent branches
  | _ => false

/-- Tells whether nothing is written in a branch. -/
def branchSilent : List Token → Bool
  | [] => true
  | token :: rest => token.isSilent && branchSilent rest

/-- Tells whether nothing is written in any of the branches. -/
def allSilent : List (List Token) → Bool
  | [] => true
  | branch :: rest => branchSilent branch && allSilent rest

end

mutual

/-- The places behind a token that starts at one of `places`. -/
def Token.reach (bytes : List UInt8) : Token → Places → Places
  | .literal c, places => places.behindChar c bytes
  | .anyByte, places => places.behind (fun _ => true) bytes
  | .anyBytes, places => places.onwards false
  | .leadingDirectories, places => places.orBehindSlash bytes
  | .trailingDirectories, places => (places.behindChar '/' bytes).onwards false
  | .innerDirectories, places => (places.behindChar '/' bytes).orBehindSlash bytes
  | .oneOf negated ranges, places =>
    places.behind (fun b => (ranges.any fun (x, y) => inRange x y b) != negated) bytes
  | .group branches, places =>
    if allSilent branches then places else groupReach bytes branches places

/-- The places behind a branch that starts at one of `places`. -/
def branchReach (bytes : List UInt8) : List Token → Places → Places
  | [], places => places
  | token :: rest, places => branchReach bytes rest (token.reach bytes places)

/-- The places behind one of the branches in which something is written. -/
def groupReach (bytes : List UInt8) : List (List Token) → Places → Places
  | [], _ => .none bytes
  | branch :: rest, places =>
    if branchSilent branch then groupReach bytes rest places
    else (branchReach bytes branch places).union (groupReach bytes rest places)

end

/-- Tells whether a glob is nothing but a double star, which matches every name. -/
def matchesEverything : List Token → Bool
  | [.leadingDirectories] => true
  | _ => false

/-- Tells whether a name matches a glob. -/
def isMatch (glob : List Token) (name : String) : Bool :=
  let bytes := bytesOf name
  matchesEverything glob || (branchReach bytes glob (.front bytes)).hasEnd

end SourceWeave.Glob
