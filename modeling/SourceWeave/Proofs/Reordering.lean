import SourceWeave.Proofs.Inclusion
import Mathlib.Data.List.Dedup

/-!
# Where the includer puts scripts

While creation is not locked, following a reference either does nothing or puts one key at the end
of the order, whether its script is new or was there before: `keys_takeIn`. So the order behind any
sequence of references has a closed form, `keys_takeAll`: the keys that were not put at the end,
followed by those that were, each where it was put last. `transform_reorders` is the statement about
the includer.
-/

namespace SourceWeave

/-- Tells whether there is a file under the path of a resolution. -/
def Resolution.leadsToFile (files : FileView) (resolution : Resolution) : Bool :=
  resolution.path?.any files.isFile

/-- A script has been read from a file that its resolution leads to. -/
theorem Script.LoadedFrom.leadsToFile {files : FileView} {separator : String}
    {resolution : Resolution} {script : Script} (h : script.LoadedFrom files separator resolution) :
    resolution.leadsToFile files = true := by
  rw [Resolution.leadsToFile, h.path, Option.any_some, h.isFile]

/-- What leads to a file that can be read leads to a script. -/
theorem Resolution.exists_loadedFrom {files : FileView} (hfiles : files.Readable)
    (separator : String) {resolution : Resolution} {key : String}
    (hkey : resolution.key? = some key) (hleads : resolution.leadsToFile files = true) :
    ∃ script : Script, script.key = key ∧ script.LoadedFrom files separator resolution := by
  obtain ⟨path, hpath, hfile⟩ := (Option.any_eq_true _ _).mp hleads
  obtain ⟨lines, hlines⟩ := hfiles path hfile
  exact ⟨⟨key, path, lines, resolution, separator⟩, rfl, hkey, hpath, hfile, hlines, rfl, rfl⟩

namespace Sources

/-- The key that a resolution puts at the end, when the keys in `known` are tracked: a tracked key,
or one that leads to a file. -/
def takenKey? (files : FileView) (known : List String) (resolution : Resolution) : Option String :=
  resolution.key?.filter fun key => key ∈ known || resolution.leadsToFile files

/-- The keys that resolutions put at the end, one after another. A key that one of them takes in is
tracked for those behind it. -/
def takenKeys (files : FileView) (known : List String) : List Resolution → List String
  | [] => []
  | resolution :: rest =>
    match takenKey? files known resolution with
    | none => takenKeys files known rest
    | some key => key :: takenKeys files (key :: known) rest

variable {files : FileView} {separator : String} {sources : Sources}

theorem takenKey?_congr {known other : List String} (h : ∀ key, key ∈ known ↔ key ∈ other)
    (resolution : Resolution) :
    takenKey? files known resolution = takenKey? files other resolution := by
  simp only [takenKey?, h]

/-- It does not matter in which order the tracked keys are. -/
theorem takenKeys_congr {known other : List String} (h : ∀ key, key ∈ known ↔ key ∈ other)
    (resolutions : List Resolution) :
    takenKeys files known resolutions = takenKeys files other resolutions := by
  induction resolutions generalizing known other with
  | nil => rfl
  | cons resolution rest ih =>
      rw [takenKeys, takenKeys, takenKey?_congr h]
      cases takenKey? files other resolution with
      | none => exact ih h
      | some key =>
          refine congrArg (key :: ·) (ih fun tracked => ?_)
          rw [List.mem_cons, List.mem_cons, h]

/-- Following a resolution puts at most one key at the end. -/
theorem keys_takeIn (hfiles : files.Readable) (hlock : sources.locked = false)
    (resolution : Resolution) :
    (sources.takeIn files separator resolution).keys =
      match takenKey? files sources.keys resolution with
      | none => sources.keys
      | some key => sources.keys.filter (· != key) ++ [key] := by
  cases hkey : resolution.key? with
  | none =>
      rw [takeIn, takenKey?, hkey]
      rfl
  | some key =>
      by_cases hmem : key ∈ sources.keys
      · rw [takenKey?, hkey, Option.filter_some_pos (by simp [hmem]), takeIn_of_mem hkey hmem,
          keys_moveToEnd hmem, sources.keys_nodup.erase_eq_filter]
      · cases hleads : resolution.leadsToFile files with
        | true =>
            obtain ⟨script, rfl, hloaded⟩ :=
              Resolution.exists_loadedFrom hfiles separator hkey hleads
            have hself : sources.keys.filter (· != script.key) = sources.keys :=
              List.filter_eq_self.mpr fun other hother =>
                bne_iff_ne.mpr fun heq => hmem (heq ▸ hother)
            rw [takenKey?, hkey, Option.filter_some_pos (by simp [hleads]),
              takeIn_of_loaded hloaded hlock hmem, keys_enqueue hmem]
            simp only [hself]
        | false =>
            rw [takenKey?, hkey, Option.filter_some_neg (by simp [hmem, hleads])]
            rcases takeIn_cases files separator sources resolution with
              heq | ⟨other, hother, hkey', -⟩ | ⟨script, hloaded, -⟩
            · rw [heq]
            · exact absurd (Option.some.inj (hkey.symm.trans hkey') ▸ hother) hmem
            · exact absurd hloaded.leadsToFile (by simp [hleads])

/-- Putting a key at the end before others are put there. Of a key that is put there again, only the
later place counts. -/
theorem filter_append_dedup (keys : List String) (key : String) (taken : List String) :
    (keys.filter (· != key) ++ [key]).filter (· ∉ taken) ++ taken.dedup =
      keys.filter (· ∉ key :: taken) ++ (key :: taken).dedup := by
  have hothers : (keys.filter (· != key)).filter (· ∉ taken) = keys.filter (· ∉ key :: taken) := by
    rw [List.filter_filter]
    refine List.filter_congr fun other _ => ?_
    rw [Bool.eq_iff_iff]
    simp [and_comm]
  rw [List.filter_append, hothers]
  by_cases hmem : key ∈ taken
  · rw [List.dedup_cons_of_mem hmem, List.filter_cons_of_neg (by simp [hmem]), List.filter_nil,
      List.append_nil]
  · rw [List.dedup_cons_of_notMem hmem, List.filter_cons_of_pos (by simp [hmem]), List.filter_nil,
      List.append_assoc, List.singleton_append]

/-- The order behind a sequence of resolutions: the keys that none of them put at the end, then the
others, each at its last place in the sequence. -/
theorem keys_takeAll (hfiles : files.Readable) (hlock : sources.locked = false)
    (resolutions : List Resolution) :
    (takeAll files separator resolutions sources).keys =
      sources.keys.filter (· ∉ takenKeys files sources.keys resolutions) ++
        (takenKeys files sources.keys resolutions).dedup := by
  induction resolutions generalizing sources with
  | nil => simp [takeAll, takenKeys]
  | cons resolution rest ih =>
      have hopen : (sources.takeIn files separator resolution).locked = false :=
        takeIn_keeps.locked.trans hlock
      have hstep : (sources.takeIn files separator resolution).keys = _ :=
        keys_takeIn hfiles hlock resolution
      have hrest := ih hopen
      rw [takenKeys]
      cases htaken : takenKey? files sources.keys resolution with
      | none =>
          rw [htaken] at hstep
          rw [hstep] at hrest
          exact hrest
      | some key =>
          rw [htaken] at hstep
          have hknown : ∀ tracked, tracked ∈ sources.keys.filter (· != key) ++ [key] ↔
              tracked ∈ key :: sources.keys := by
            intro tracked
            by_cases heq : tracked = key <;> simp [heq]
          rw [hstep, takenKeys_congr hknown, filter_append_dedup] at hrest
          exact hrest

/-- A script that resolutions take in is read from the first of them that has its key and leads to a
file. -/
theorem find?_of_notMem_keys (hfiles : files.Readable) (hlock : sources.locked = false)
    {resolutions : List Resolution} {entry : Tracked}
    (hentry : entry ∈ (takeAll files separator resolutions sources).entries)
    (hnew : entry.key ∉ sources.keys) :
    resolutions.find? (fun resolution =>
      resolution.key? = some entry.key && resolution.leadsToFile files) =
        some entry.script.resolution := by
  induction resolutions generalizing sources with
  | nil => exact absurd (mem_keys.mpr ⟨entry, hentry, rfl⟩) hnew
  | cons resolution rest ih =>
      by_cases htracked : entry.key ∈ (sources.takeIn files separator resolution).keys
      · -- the script came in at this step, and stays the only one with its key
        rcases takeIn_cases files separator sources resolution with
          heq | ⟨key, -, -, heq⟩ | ⟨script, hloaded, -, habsent, heq⟩
        · exact absurd (heq ▸ htracked) hnew
        · rw [heq] at htracked
          have hperm := (sources.entries_moveToEnd_perm key).map Tracked.key
          exact absurd (hperm.mem_iff.mp htracked) hnew
        · have hscript :
              ⟨script, .queued⟩ ∈ (sources.takeIn files separator resolution).entries := by
            rw [heq, entries_enqueue habsent]
            simp
          have hkey : entry.key = script.key := by
            rw [heq, keys_enqueue habsent] at htracked
            simpa [hnew] using htracked
          obtain rfl := entry_unique hentry ((takeAll_keeps rest).mem_of_mem hscript) hkey
          rw [List.find?_cons_of_pos, hloaded.resolution_eq]
          simp [hloaded.leadsToFile, hloaded.key, Tracked.key]
      · rw [List.find?_cons_of_neg]
        · exact ih (takeIn_keeps.locked.trans hlock) hentry htracked
        · intro hmatch
          obtain ⟨hkey, hleads⟩ := by simpa using hmatch
          rw [keys_takeIn hfiles hlock, takenKey?, hkey, Option.filter_some_pos (by simp [hleads])]
            at htracked
          simp at htracked

/-- The sources after a sequence of resolutions has been followed, in terms of those before. -/
structure Reordered (store : MemoryFiles) (separator : String) (resolutions : List Resolution)
    (before after : Sources) : Prop where
  /-- The keys that are put at the end stand behind the others, each where it is put last. -/
  keys : after.keys = before.keys.filter (· ∉ takenKeys store.view before.keys resolutions) ++
    (takenKeys store.view before.keys resolutions).dedup
  /-- What was tracked is tracked with its stage and its lines. -/
  kept : ∀ entry ∈ before.entries, entry ∈ after.entries
  /-- What is new waits, with the separator, under the resolution that it was first found under. -/
  added : ∀ entry ∈ after.entries, entry.key ∉ before.keys →
    entry.stage = .queued ∧ entry.script.LoadedFrom store.view separator entry.script.resolution ∧
      resolutions.find? (fun resolution =>
        resolution.key? = some entry.key && resolution.leadsToFile store.view) =
          some entry.script.resolution
  /-- Its lines are those of the file under its path. -/
  lines : ∀ entry ∈ after.entries, entry.key ∉ before.keys →
    ∃ file, store.get? entry.script.path = some file ∧
      entry.script.rawLines = Text.splitLines file.content
  scheme : after.scheme = before.scheme
  locked : after.locked = before.locked

/-- Following resolutions reorders the sources. -/
theorem reordered_takeAll (store : MemoryFiles) (hlock : sources.locked = false)
    (resolutions : List Resolution) :
    Reordered store separator resolutions sources
      (takeAll store.view separator resolutions sources) := by
  have hgrows : Grows (fun script => script.LoadedFrom store.view separator script.resolution)
      sources (takeAll store.view separator resolutions sources) :=
    takeAll_grows fun _ _ script hloaded => hloaded.resolution_eq.symm ▸ hloaded
  have hadded : ∀ entry ∈ (takeAll store.view separator resolutions sources).entries,
      entry.key ∉ sources.keys → entry.stage = .queued ∧
        entry.script.LoadedFrom store.view separator entry.script.resolution := by
    intro entry hentry hnew
    rcases hgrows.mem_cases hentry with hold | ⟨hstage, hloaded, -⟩
    · exact absurd (mem_keys.mpr ⟨entry, hold, rfl⟩) hnew
    · exact ⟨hstage, hloaded⟩
  refine ⟨keys_takeAll store.view_readable hlock resolutions, fun entry => hgrows.mem_of_mem,
    fun entry hentry hnew => ?_, fun entry hentry hnew => ?_, hgrows.scheme, hgrows.locked⟩
  · obtain ⟨hstage, hloaded⟩ := hadded entry hentry hnew
    exact ⟨hstage, hloaded, find?_of_notMem_keys store.view_readable hlock hentry hnew⟩
  · exact MemoryFiles.readLines_view.mp (hadded entry hentry hnew).2.lines

end Sources

/-- While creation is not locked, the includer reorders the sources by what the directives of a
script lead to, line by line and, for a pattern, in the order in which the files are listed. -/
theorem transform_reorders (store : MemoryFiles) (script : Script) (definitions : Definitions)
    (plugin : Includer) (lines : List String) {session : Session}
    (hlock : session.sources.locked = false) :
    ∃ after, Plugin.transformScript ⟨script, store.view, definitions⟩ lines (plugin, session) =
        .ok (lines.map plugin.mark) (plugin, after) ∧
      Sources.Reordered store plugin.separator
        (plugin.allTargets store.view session.sources.scheme script lines) session.sources
          after.sources := by
  obtain ⟨after, htransform, hafter⟩ :=
    @Includer.transform_eq plugin ⟨script, store.view, definitions⟩ store.view_readable lines
      session
  refine ⟨after, ?_, ?_⟩
  · simp only [Plugin.transformScript, htransform]
  · rw [hafter]
    exact Sources.reordered_takeAll store hlock _

/-- Three files in one directory. -/
def siblingFiles : MemoryFiles :=
  .ofList [(⟨"/s"⟩, "s"), (⟨"/b"⟩, "b"), (⟨"/c"⟩, "c")]

/-- A script that is tracked under its path. -/
def trackedScript (text : String) : Script :=
  ⟨text, ⟨text⟩, [], .resolved text ⟨text⟩, "\n"⟩

/-- A session with a script that waits and two that are done, one of them without a file. -/
def busySession : Session :=
  ((((((Session.start ⟨"/"⟩).setLock false).enqueue (trackedScript "/s")).enqueue
    (trackedScript "/x")).enqueue (trackedScript "/b")).setStage "/x" .done).setStage "/b" .done

/-- A tracked script twice, the script itself, a pattern, and a file that is not there. -/
def windingLines : List String :=
  ["#include b", "s", "#include s", "#include *", "#include gone", "#include b"]

set_option maxRecDepth 10000 in
theorem transform_reorders_busy :
    busySession.sources.locked = false ∧ busySession.sources.keys = ["/s", "/x", "/b"] ∧
      ∃ after, Plugin.transformScript ⟨trackedScript "/s", siblingFiles.view, .empty⟩ windingLines
          (({} : Includer), busySession) =
            .ok (windingLines.map (Includer.mark {})) ({}, after) ∧
        after.sources.keys = ["/x", "/s", "/c", "/b"] ∧
        Sources.Reordered siblingFiles "\n"
          (Includer.allTargets {} siblingFiles.view busySession.sources.scheme (trackedScript "/s")
            windingLines) busySession.sources after.sources := by
  have hlock : busySession.sources.locked = false := by decide +kernel
  obtain ⟨after, htransform, hreordered⟩ :=
    transform_reorders siblingFiles (trackedScript "/s") .empty {} windingLines hlock
  refine ⟨hlock, by decide +kernel, after, htransform, hreordered.keys.trans ?_, hreordered⟩
  decide +kernel

end SourceWeave
