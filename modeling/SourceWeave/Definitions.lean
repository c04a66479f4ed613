import Std.Data.TreeSet

/-!
# Definitions

The names that are defined for a run, in ascending order.
-/

namespace SourceWeave

/-- The names that are defined for a run. -/
structure Definitions where
  /-- The names, in ascending order. -/
  names : Std.TreeSet String

namespace Definitions

/-- Nothing is defined. -/
def empty : Definitions := ⟨{}⟩

/-- Defines a name. -/
def define (definitions : Definitions) (name : String) : Definitions :=
  ⟨definitions.names.insert name⟩

/-- Takes a definition back. -/
def undefine (definitions : Definitions) (name : String) : Definitions :=
  ⟨definitions.names.erase name⟩

/-- Tells whether a name is defined. -/
def isDefined (definitions : Definitions) (name : String) : Bool :=
  definitions.names.contains name

/-- The defined names, in ascending order. -/
def toList (definitions : Definitions) : List String :=
  definitions.names.toList

/-- How many names are defined. -/
def size (definitions : Definitions) : Nat :=
  definitions.names.size

/-- Tells whether nothing is defined. -/
def isEmpty (definitions : Definitions) : Bool :=
  definitions.names.isEmpty

/-- Defines every name of a list. -/
def ofList (names : List String) : Definitions :=
  names.foldl define empty

/-- Two sets of definitions are the same if they define the same names. -/
instance : BEq Definitions where
  beq a b := a.toList == b.toList

end Definitions

end SourceWeave
