import SourceWeave.Plugin.BlankLines

/-!
# The built-in plugins

The plugins that a chain can name by their handles.
-/

namespace SourceWeave

/-- A built-in plugin. -/
abbrev Builtin := Includer ⊕ BlankLineRemover

namespace Builtin

/-- The chain that is used when none is named. -/
def defaultChain : List String := ["inc", "blr"]

/-- One of each built-in plugin. -/
def all : List Builtin := [.inl {}, .inr {}]

/-- The built-in plugin with a handle. -/
def find? (handle : String) : Option Builtin :=
  all.find? fun plugin => (Plugin.descriptor plugin).handles.contains handle

/-- The plugin that a handle names. -/
def get (handle : String) : Except Error Builtin :=
  match find? handle with
  | some plugin => .ok plugin
  | none => .error (.unknownPlugin handle)

/-- The plugins that the handles name, in order. -/
def chain (handles : List String) : Except Error (List Builtin) :=
  handles.mapM get

end Builtin

end SourceWeave
