import SourceWeave.Script

/-!
# The sources of a run

The scripts of a run in the order in which they will be written, each waiting or done. No two of
them have the same key. New scripts can be made only while creation is not locked.
-/

namespace SourceWeave

/-- How far a script has come. -/
inductive Stage where
  /-- It waits to be processed. -/
  | queued
  /-- It has been processed. -/
  | done
deriving DecidableEq, Repr

/-- The name of a stage. -/
def Stage.label : Stage → String
  | .queued => "Queued"
  | .done => "Done"

/-- A script and how far it has come. -/
structure Tracked where
  /-- The script. -/
  script : Script
  /-- How far it has come. -/
  stage : Stage

namespace Tracked

/-- The key of the script. -/
def key (entry : Tracked) : String := entry.script.key

/-- Tells whether the script waits. -/
def isQueued (entry : Tracked) : Bool := entry.stage == .queued

end Tracked

/-- The scripts of a run, in the order in which they will be written. -/
structure Sources where
  /-- The scripts and how far they have come. -/
  entries : List Tracked
  /-- The scheme that resolves references. -/
  scheme : Scheme
  /-- Whether the creation of scripts is locked. -/
  locked : Bool
  /-- No two scripts have the same key. -/
  distinct : (entries.map Tracked.key).Nodup

namespace Sources

/-- No scripts yet, creation locked, and references resolved by their paths. -/
def empty (cwd : Path) : Sources where
  entries := []
  scheme := .pathKey cwd
  locked := true
  distinct := List.nodup_nil

/-- Resolves a reference with the active scheme. -/
def resolve (sources : Sources) (tokens : List String) (directory : Path) : Resolution :=
  sources.scheme.resolve tokens directory

/-- The entry of a key. -/
def find? (sources : Sources) (key : String) : Option Tracked :=
  sources.entries.find? (·.key == key)

/-- Tells whether a key is tracked. -/
def containsKey (sources : Sources) (key : String) : Bool :=
  (sources.find? key).isSome

/-- Tells whether a script with the same key is tracked. -/
def isIncluded (sources : Sources) (script : Script) : Bool :=
  sources.containsKey script.key

/-- How far the script with a key has come. -/
def stageOf? (sources : Sources) (key : String) : Option Stage :=
  (sources.find? key).map (·.stage)

/-- The first script that waits. -/
def nextReady? (sources : Sources) : Option Script :=
  (sources.entries.find? Tracked.isQueued).map (·.script)

/-- How many scripts wait. -/
def pendingCount (sources : Sources) : Nat :=
  (sources.entries.filter Tracked.isQueued).length

/-- The scripts, in order. -/
def scripts (sources : Sources) : List Script :=
  sources.entries.map (·.script)

/-- The keys, in order. -/
def keys (sources : Sources) : List String :=
  sources.entries.map Tracked.key

/-- How many scripts there are. -/
def size (sources : Sources) : Nat :=
  sources.entries.length

theorem containsKey_eq_true {sources : Sources} {key : String} :
    sources.containsKey key = true ↔ key ∈ sources.keys := by
  simp [containsKey, find?, keys, List.find?_isSome]

/-- Puts a script at the end, waiting. Nothing happens if its key is tracked. -/
def enqueue (sources : Sources) (script : Script) : Sources :=
  if h : sources.containsKey script.key = true then sources
  else
    { sources with
      entries := sources.entries ++ [⟨script, .queued⟩]
      distinct := by
        rw [containsKey_eq_true] at h
        rw [List.map_append, List.nodup_append]
        refine ⟨sources.distinct, by simp, ?_⟩
        intro key hkey other hother heq
        simp only [List.map_cons, List.map_nil, List.mem_singleton] at hother
        subst hother heq
        exact h hkey }

/-- The entries with the stage of the first one with a key changed. -/
def stageEntries (key : String) (stage : Stage) : List Tracked → List Tracked
  | [] => []
  | entry :: rest =>
    if entry.key = key then { entry with stage := stage } :: rest
    else entry :: stageEntries key stage rest

@[simp]
theorem map_script_stageEntries (key : String) (stage : Stage) (entries : List Tracked) :
    (stageEntries key stage entries).map Tracked.script = entries.map Tracked.script := by
  induction entries with
  | nil => rfl
  | cons entry rest ih =>
      rw [stageEntries]
      split
      · rfl
      · rw [List.map_cons, List.map_cons, ih]

@[simp]
theorem map_key_stageEntries (key : String) (stage : Stage) (entries : List Tracked) :
    (stageEntries key stage entries).map Tracked.key = entries.map Tracked.key := by
  have h := congrArg (List.map Script.key) (map_script_stageEntries key stage entries)
  rwa [List.map_map, List.map_map] at h

/-- Changes how far the script with a key has come. Nothing happens if the key is not tracked. -/
def setStage (sources : Sources) (key : String) (stage : Stage) : Sources :=
  { sources with
    entries := stageEntries key stage sources.entries
    distinct := by rw [map_key_stageEntries]; exact sources.distinct }

/-- The entries with the first one with a key moved to the end. -/
def endEntries (key : String) (entries : List Tracked) : List Tracked :=
  match entries.find? (·.key == key) with
  | none => entries
  | some entry => entries.eraseP (·.key == key) ++ [entry]

theorem endEntries_perm (key : String) (entries : List Tracked) :
    (endEntries key entries).Perm entries := by
  unfold endEntries
  split
  · exact .refl entries
  · next entry hfind =>
    obtain ⟨hkey, front, back, rfl, hfront⟩ := List.find?_eq_some_iff_append.mp hfind
    rw [List.eraseP_append_right _ (by simpa using hfront), List.eraseP_cons, hkey, cond_true]
    exact (List.perm_append_singleton entry _).trans List.perm_middle.symm

/-- Moves the script with a key to the end. Nothing happens if the key is not tracked. -/
def moveToEnd (sources : Sources) (key : String) : Sources :=
  { sources with
    entries := endEntries key sources.entries
    distinct := ((endEntries_perm key sources.entries).map Tracked.key).nodup_iff.mpr
      sources.distinct }

/-- Locks or unlocks the creation of scripts. -/
def setLock (sources : Sources) (locked : Bool) : Sources :=
  { sources with locked := locked }

/-- Takes another scheme into use. -/
def setScheme (sources : Sources) (scheme : Scheme) : Sources :=
  { sources with scheme := scheme }

/-- Makes a script, which is not yet one of the sources. There is none while creation is locked or
if the reference was not resolved. -/
def tryCreate? (sources : Sources) (separator : String) (rawLines : List String)
    (resolution : Resolution) : Option Script :=
  if sources.locked then none else Script.ofResolution? separator rawLines resolution

end Sources

end SourceWeave
