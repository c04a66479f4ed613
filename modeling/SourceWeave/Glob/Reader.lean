import SourceWeave.Glob.Basic

/-!
# Reading globs

The reader goes through the pattern one character at a time. Its state holds the tokens of the
branch being read and, for each brace still open, the branch the brace stands in and the branches of
the group read so far.
-/

namespace SourceWeave.Glob

/-- A group whose closing brace has not been read. -/
structure OpenGroup where
  /-- The tokens in front of the group, the last one first. -/
  enclosing : List Token
  /-- The branches of the group read so far, the last one first. -/
  branches : List (List Token)

/-- The tokens read so far. -/
structure Partial where
  /-- The branch being read, its last token first. -/
  branch : List Token
  /-- The groups still open, the innermost first. -/
  groups : List OpenGroup

namespace Partial

/-- Nothing read yet. -/
def empty : Partial := ⟨[], []⟩

/-- Adds a token to the branch being read. -/
def push (state : Partial) (token : Token) : Partial :=
  { state with branch := token :: state.branch }

/-- Adds two stars that stand for any number of bytes. -/
def pushStars (state : Partial) : Partial :=
  (state.push .anyBytes).push .anyBytes

/-- Puts `token` in place of the last one, unless that already stands for whole directories at an
edge of the pattern. -/
def absorb (state : Partial) (token : Token) : Partial :=
  match state.branch with
  | .leadingDirectories :: _ => state
  | .trailingDirectories :: _ => state
  | _ :: others => { state with branch := token :: others }
  | [] => state

/-- Opens a group. -/
def openGroup (state : Partial) : Partial :=
  ⟨[], ⟨state.branch, []⟩ :: state.groups⟩

/-- Ends a branch. A comma outside all groups stands for itself. -/
def comma (state : Partial) : Partial :=
  match state.groups with
  | [] => state.push (.literal ',')
  | group :: others =>
    ⟨[], { group with branches := state.branch.reverse :: group.branches } :: others⟩

/-- Closes the innermost group. -/
def closeGroup (state : Partial) : Except Fault Partial :=
  match state.groups with
  | [] => .error .unopenedGroup
  | group :: others =>
    .ok ⟨.group (state.branch.reverse :: group.branches).reverse :: group.enclosing, others⟩

/-- The tokens of the whole pattern, once every group is closed. -/
def finish (state : Partial) : Except Fault (List Token) :=
  match state.groups with
  | [] => .ok state.branch.reverse
  | _ :: _ => .error .unclosedGroup

end Partial

/-- A class whose closing bracket has not been read. -/
structure OpenClass where
  /-- Whether the class is negated. -/
  negated : Bool
  /-- Whether nothing of the class but a negation has been read. -/
  first : Bool
  /-- Whether a dash was read that makes a range of the last member and the next. -/
  ranging : Bool
  /-- The ranges read so far, the last one first. -/
  ranges : List (Char × Char)

namespace OpenClass

/-- Makes `c` the end of the last range. -/
def extend (state : OpenClass) (c : Char) : Except Fault OpenClass :=
  match state.ranges with
  | (low, _) :: others =>
    if c < low then .error (.invalidRange low c)
    else .ok { state with first := false, ranging := false, ranges := (low, c) :: others }
  | [] => .ok { state with first := false, ranging := false }

/-- Adds `c` as a member of its own. -/
def add (state : OpenClass) (c : Char) : OpenClass :=
  { state with first := false, ranges := (c, c) :: state.ranges }

/-- Reads one character that does not close the class. -/
def member (state : OpenClass) (c : Char) : Except Fault OpenClass :=
  if state.ranging then state.extend c
  else if c = '-' && !state.first then .ok { state with ranging := true }
  else .ok (state.add c)

/-- The token of the class. A dash at the end is a member. -/
def close (state : OpenClass) : Token :=
  .oneOf state.negated (if state.ranging then ('-', '-') :: state.ranges else state.ranges).reverse

end OpenClass

/-- What the next character of a pattern is part of. -/
inductive Mode where
  /-- The pattern itself. -/
  | plain
  /-- An escape: the character stands for itself. -/
  | escape
  /-- The start of a class, where it may be negated. -/
  | classStart
  /-- The members of a class. -/
  | members (state : OpenClass)

/-- What a double star stands for, given the character before it, the tokens read so far and the
characters behind it. The flag tells whether the slash behind it is used up. -/
def readStars (previous : Option Char) (state : Partial) (rest : List Char) : Partial × Bool :=
  let atSlash := previous == some '/'
  let atBranchStart := !state.groups.isEmpty && (previous == some ',' || previous == some '\x7b')
  if state.branch.isEmpty then
    match rest with
    | [] => (state.push .leadingDirectories, false)
    | '/' :: _ => (state.push .leadingDirectories, true)
    | _ => (state.pushStars, false)
  else if !atSlash && !atBranchStart then (state.pushStars, false)
  else
    match rest with
    | [] => (state.absorb .trailingDirectories, false)
    | '/' :: _ => (state.absorb .innerDirectories, true)
    | c :: _ =>
      if (c = ',' || c = '\x7d') && !state.groups.isEmpty then
        (state.absorb .trailingDirectories, false)
      else (state.pushStars, false)

/-- Reads the rest of a pattern. -/
def readFrom : Mode → Option Char → Partial → List Char → Except Fault (List Token)
  | .plain, _, state, [] => state.finish
  | .escape, _, _, [] => .error .danglingEscape
  | .classStart, _, _, [] => .error .unclosedClass
  | .members _, _, _, [] => .error .unclosedClass
  | .plain, previous, state, '*' :: '*' :: rest =>
    match readStars previous state rest with
    | (next, false) => readFrom .plain (some '*') next rest
    | (next, true) =>
      match rest with
      | [] => readFrom .plain (some '*') next []
      | c :: others => readFrom .plain (some c) next others
  | .plain, _, state, c :: rest =>
    if c = '?' then readFrom .plain (some c) (state.push .anyByte) rest
    else if c = '*' then readFrom .plain (some c) (state.push .anyBytes) rest
    else if c = '[' then readFrom .classStart (some c) state rest
    else if c = '\x7b' then readFrom .plain (some c) state.openGroup rest
    else if c = '\x7d' then
      match state.closeGroup with
      | .error fault => .error fault
      | .ok next => readFrom .plain (some c) next rest
    else if c = ',' then readFrom .plain (some c) state.comma rest
    else if c = '\\' then readFrom .escape (some c) state rest
    else readFrom .plain (some c) (state.push (.literal c)) rest
  | .escape, _, state, c :: rest => readFrom .plain (some c) (state.push (.literal c)) rest
  | .classStart, _, state, c :: rest =>
    if c = '!' || c = '^' then readFrom (.members ⟨true, true, false, []⟩) (some c) state rest
    else
      match OpenClass.member ⟨false, true, false, []⟩ c with
      | .error fault => .error fault
      | .ok next => readFrom (.members next) (some c) state rest
  | .members open?, _, state, c :: rest =>
    if c = ']' && !open?.first then readFrom .plain (some c) (state.push open?.close) rest
    else
      match open?.member c with
      | .error fault => .error fault
      | .ok next => readFrom (.members next) (some c) state rest

/-- Reads a glob. -/
def read (pattern : String) : Except Fault (List Token) :=
  readFrom .plain none Partial.empty pattern.toList

end SourceWeave.Glob
