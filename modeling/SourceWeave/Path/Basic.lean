import SourceWeave.Text.Fields

/-!
# Paths

A path is kept as it was written. What it names is read off its components: an opening (`/` for an
absolute path, a leading `.` of a relative one, or nothing) followed by a body of names and `..`.
Repeated slashes, inner or trailing dots and a trailing slash add no component. Two paths are the
same, ordered, or one below the other according to their components, while `join`, `parent` and
`relativeTo?` keep the spelling of the text they leave standing.
-/

namespace SourceWeave

/-- A path, as written. It is a text: a path whose bytes encode none is not one of these. -/
structure Path where
  /-- The text of the path. -/
  text : String
deriving DecidableEq, Inhabited, Repr

namespace Path

/-- One part of a path. -/
inductive Component where
  /-- The root directory. -/
  | root
  /-- A leading `.` of a relative path. -/
  | current
  /-- A `..`, one directory up. -/
  | parent
  /-- An ordinary name. -/
  | name (text : String)
deriving DecidableEq, Inhabited, Repr

namespace Component

/-- The place of a component's kind in the order of components. -/
def rank : Component → Nat
  | root => 0
  | current => 1
  | parent => 2
  | name _ => 3

/-- The name a component carries, empty for the others. -/
def label : Component → String
  | name text => text
  | _ => ""

/-- Components are ordered by kind, and names among themselves by their code points. -/
instance : Ord Component where
  compare := compareLex (compareOn rank) (compareOn label)

instance : Std.TransOrd Component :=
  inferInstanceAs (Std.TransCmp (compareLex (compareOn rank) (compareOn label)))

instance : Std.LawfulEqOrd Component where
  eq_of_compare {a b} h := by
    have h' : (compare a.rank b.rank).then (compare a.label b.label) = .eq := h
    rw [Ordering.then_eq_eq, Std.compare_eq_iff_eq, Std.compare_eq_iff_eq] at h'
    cases a <;> cases b <;> simp_all [rank, label]

/-- The component that a piece between two slashes stands for: an empty piece and a single dot
stand for none. -/
def ofPiece? : List Char → Option Component
  | [] => none
  | ['.'] => none
  | ['.', '.'] => some .parent
  | cs => some (.name (String.ofList cs))

end Component

/-- The pieces of a path text between its slashes. -/
def pieces (cs : List Char) : List (List Char) :=
  Text.fields '/' cs

/-- Writes pieces one after another with a slash between them. -/
def joinPieces (pieces : List (List Char)) : List Char :=
  Text.joinFields '/' pieces

/-- How a path begins. -/
inductive Opening where
  /-- With a slash: the path is absolute. -/
  | root
  /-- With a single dot as its first piece. -/
  | here
  /-- With neither. -/
  | bare
deriving DecidableEq, Repr

/-- A path text taken apart: its opening, and the pieces behind the opening. -/
structure Shape where
  /-- How the path begins. -/
  opening : Opening
  /-- The pieces behind the opening. -/
  body : List (List Char)
deriving DecidableEq, Repr

namespace Shape

/-- Takes a path text apart. -/
def ofChars : List Char → Shape
  | [] => ⟨.bare, []⟩
  | '/' :: rest => ⟨.root, pieces rest⟩
  | cs =>
    match pieces cs with
    | ['.'] :: others => ⟨.here, others⟩
    | all => ⟨.bare, all⟩

/-- The text of a path taken apart. -/
def chars : Shape → List Char
  | ⟨.root, body⟩ => '/' :: joinPieces body
  | ⟨.here, []⟩ => ['.']
  | ⟨.here, body⟩ => '.' :: '/' :: joinPieces body
  | ⟨.bare, body⟩ => joinPieces body

/-- The component of the opening, if it has one. -/
def openingComponents : Opening → List Component
  | .root => [.root]
  | .here => [.current]
  | .bare => []

/-- The components, from the first to the last. -/
def components (shape : Shape) : List Component :=
  openingComponents shape.opening ++ shape.body.filterMap Component.ofPiece?

end Shape

/-- Tells whether a piece stands for no component. -/
def isIdle (piece : List Char) : Bool :=
  (Component.ofPiece? piece).isNone

/-- Drops the pieces at the end that stand for no component. -/
def dropIdleEnd (body : List (List Char)) : List (List Char) :=
  (body.reverse.dropWhile isIdle).reverse

/-- The path taken apart. -/
def shape (path : Path) : Shape :=
  Shape.ofChars path.text.toList

/-- The components of the path. -/
def components (path : Path) : List Component :=
  path.shape.components

/-- Paths are ordered by their components. -/
instance : Ord Path where
  compare := compareOn components

/-- Tells whether the path begins at the root directory. -/
def isAbsolute (path : Path) : Bool :=
  path.text.toList.head? == some '/'

/-- Tells whether `path` lies at or below `directory`, component by component. -/
def startsWith (path directory : Path) : Bool :=
  directory.components.isPrefixOf path.components

/-- The path `child` seen from `base`. An absolute `child` stands for itself; otherwise the two
texts are put together, with a slash between them unless `base` is empty or already ends in one. -/
def join (base child : Path) : Path :=
  if child.isAbsolute then child
  else if base.text.isEmpty || base.text.toList.getLast? == some '/' then
    ⟨base.text ++ child.text⟩
  else ⟨base.text ++ "/" ++ child.text⟩

/-- The last component, when it is an ordinary name. -/
def fileName? (path : Path) : Option String :=
  match path.components.getLast? with
  | some (.name text) => some text
  | _ => none

/-- The path without its last component. The root and the empty path have no parent. -/
def parent? (path : Path) : Option Path :=
  let shape := path.shape
  match (dropIdleEnd shape.body).reverse with
  | _ :: others => some ⟨String.ofList (Shape.chars ⟨shape.opening, dropIdleEnd others.reverse⟩)⟩
  | [] =>
    match shape.opening with
    | .here => some ⟨""⟩
    | .root | .bare => none

/-- Drops the pieces of `count` components, and the idle pieces before, between and behind them. -/
def dropComponents : Nat → List (List Char) → List (List Char)
  | 0, body => body.dropWhile isIdle
  | count + 1, body => dropComponents count ((body.dropWhile isIdle).drop 1)

/-- The text of `path` behind the components of `base`, when `path` lies at or below `base`. -/
def relativeTo? (path base : Path) : Option Path :=
  let shape := path.shape
  let consumed := base.components.length
  let opened := (Shape.openingComponents shape.opening).length
  if !path.startsWith base then none
  else if consumed = 0 then
    some ⟨String.ofList (Shape.chars ⟨shape.opening, dropIdleEnd shape.body⟩)⟩
  else
    some ⟨String.ofList (joinPieces (dropIdleEnd (dropComponents (consumed - opened) shape.body)))⟩

end Path

end SourceWeave
