import SourceWeave.Session
import Mathlib.Data.List.Nodup
import Mathlib.Data.List.Perm.Basic

/-!
# What happens to tracked scripts

Lemmas on the operations of `Sources`, and of `Session` through its sources. Read `Sources.Grows`
first: while plugins work, scripts are only put behind the others and moved, so the sources after
some work hold the same entries as before, in another order, with some waiting ones added. `Grows`
is reflexive and transitive, and each operation that a plugin may call is an instance of it.
-/

namespace SourceWeave

namespace Sources

/-- Sources are told apart by their entries, their scheme and their lock. -/
theorem eq_of_fields {sources other : Sources} (hentries : sources.entries = other.entries)
    (hscheme : sources.scheme = other.scheme) (hlocked : sources.locked = other.locked) :
    sources = other := by
  cases sources
  cases other
  simp only at hentries hscheme hlocked
  subst hentries hscheme hlocked
  rfl

/-! ## Entries and keys -/

theorem mem_keys {sources : Sources} {key : String} :
    key ∈ sources.keys ↔ ∃ entry ∈ sources.entries, entry.key = key := by
  simp [keys]

theorem keys_nodup (sources : Sources) : sources.keys.Nodup := sources.distinct

theorem keys_eq_map_scripts (sources : Sources) :
    sources.keys = sources.scripts.map Script.key := by
  simp only [keys, scripts, List.map_map]
  rfl

theorem nodup_map_scripts (sources : Sources) : (sources.scripts.map Script.key).Nodup := by
  rw [← keys_eq_map_scripts]
  exact sources.keys_nodup

/-- An entry is the only one with its key. -/
theorem entry_unique {sources : Sources} {entry other : Tracked} (hentry : entry ∈ sources.entries)
    (hother : other ∈ sources.entries) (hkey : entry.key = other.key) : entry = other :=
  List.inj_on_of_nodup_map sources.distinct hentry hother hkey

theorem find?_eq_none_iff {sources : Sources} {key : String} :
    sources.find? key = none ↔ key ∉ sources.keys := by
  rw [← containsKey_eq_true, containsKey]
  cases sources.find? key <;> simp

/-! ## The single operations -/

@[simp]
theorem entries_setLock (sources : Sources) (locked : Bool) :
    (sources.setLock locked).entries = sources.entries := rfl

@[simp]
theorem scheme_setLock (sources : Sources) (locked : Bool) :
    (sources.setLock locked).scheme = sources.scheme := rfl

@[simp]
theorem locked_setLock (sources : Sources) (locked : Bool) :
    (sources.setLock locked).locked = locked := rfl

@[simp]
theorem scheme_setStage (sources : Sources) (key : String) (stage : Stage) :
    (sources.setStage key stage).scheme = sources.scheme := rfl

@[simp]
theorem locked_setStage (sources : Sources) (key : String) (stage : Stage) :
    (sources.setStage key stage).locked = sources.locked := rfl

@[simp]
theorem keys_setStage (sources : Sources) (key : String) (stage : Stage) :
    (sources.setStage key stage).keys = sources.keys :=
  map_key_stageEntries key stage sources.entries

@[simp]
theorem scripts_setStage (sources : Sources) (key : String) (stage : Stage) :
    (sources.setStage key stage).scripts = sources.scripts :=
  map_script_stageEntries key stage sources.entries

/-- Entries with other keys are left alone. -/
theorem stageEntries_eq_self {key : String} {entries : List Tracked} (stage : Stage)
    (h : key ∉ entries.map Tracked.key) : stageEntries key stage entries = entries := by
  induction entries with
  | nil => rfl
  | cons entry rest ih =>
      rw [List.map_cons, List.mem_cons, not_or] at h
      rw [stageEntries, if_neg (Ne.symm h.1), ih h.2]

/-- Where no two entries have the same key, the first one with a key is the only one. -/
theorem stageEntries_eq_map {key : String} {entries : List Tracked} (stage : Stage)
    (hdistinct : (entries.map Tracked.key).Nodup) :
    stageEntries key stage entries =
      entries.map fun entry =>
        if entry.key = key then { entry with stage := stage } else entry := by
  induction entries with
  | nil => rfl
  | cons entry rest ih =>
      rw [List.map_cons, List.nodup_cons] at hdistinct
      rw [stageEntries, List.map_cons, ← ih hdistinct.2]
      split
      · next heq => rw [stageEntries_eq_self stage (heq ▸ hdistinct.1)]
      · rfl

theorem mem_setStage {sources : Sources} {key : String} {stage : Stage} {entry : Tracked} :
    entry ∈ (sources.setStage key stage).entries ↔
      ∃ old ∈ sources.entries,
        (if old.key = key then { old with stage := stage } else old) = entry := by
  show entry ∈ stageEntries key stage sources.entries ↔ _
  rw [stageEntries_eq_map stage sources.distinct, List.mem_map]

/-- Nothing happens to the stage of an untracked key. -/
theorem setStage_eq_self {sources : Sources} {key : String} (stage : Stage)
    (h : key ∉ sources.keys) : sources.setStage key stage = sources :=
  eq_of_fields (stageEntries_eq_self stage h) rfl rfl

/-- The stage is changed where the key is found, and nowhere else. -/
theorem entries_setStage {sources : Sources} {front back : List Tracked} {entry : Tracked}
    (h : sources.entries = front ++ entry :: back) (stage : Stage) :
    (sources.setStage entry.key stage).entries =
      front ++ { entry with stage := stage } :: back := by
  have hdistinct := sources.distinct
  rw [h, List.map_append, List.map_cons, List.nodup_middle, List.nodup_cons, List.mem_append,
    not_or] at hdistinct
  obtain ⟨⟨hfront, -⟩, -⟩ := hdistinct
  simp only [setStage, h]
  clear h
  induction front with
  | nil => rw [List.nil_append, stageEntries, if_pos rfl, List.nil_append]
  | cons other rest ih =>
      rw [List.map_cons, List.mem_cons, not_or] at hfront
      rw [List.cons_append, stageEntries, if_neg (Ne.symm hfront.1), ih hfront.2, List.cons_append]

@[simp]
theorem scheme_moveToEnd (sources : Sources) (key : String) :
    (sources.moveToEnd key).scheme = sources.scheme := rfl

@[simp]
theorem locked_moveToEnd (sources : Sources) (key : String) :
    (sources.moveToEnd key).locked = sources.locked := rfl

theorem entries_moveToEnd_perm (sources : Sources) (key : String) :
    (sources.moveToEnd key).entries.Perm sources.entries :=
  endEntries_perm key sources.entries

/-- A move takes the key out of the order and puts it at the end. -/
theorem keys_moveToEnd {sources : Sources} {key : String} (h : key ∈ sources.keys) :
    (sources.moveToEnd key).keys = sources.keys.erase key ++ [key] := by
  obtain ⟨entry, hfind⟩ := Option.isSome_iff_exists.mp (containsKey_eq_true.mpr h)
  have hkey : entry.key = key := by simpa using List.find?_some hfind
  have herase : (sources.entries.eraseP (·.key == key)).map Tracked.key =
      sources.keys.erase key := by
    rw [List.erase_eq_eraseP', keys, List.eraseP_map]
    rfl
  rw [find?] at hfind
  simp only [moveToEnd, keys, endEntries, hfind, List.map_append, List.map_cons, List.map_nil, hkey]
  rw [herase]
  rfl

/-- Nothing happens when an untracked key is moved. -/
theorem moveToEnd_eq_self {sources : Sources} {key : String} (h : key ∉ sources.keys) :
    sources.moveToEnd key = sources := by
  have hfind := find?_eq_none_iff.mpr h
  rw [find?] at hfind
  refine eq_of_fields ?_ rfl rfl
  simp only [moveToEnd, endEntries, hfind]

@[simp]
theorem scheme_enqueue (sources : Sources) (script : Script) :
    (sources.enqueue script).scheme = sources.scheme := by
  unfold enqueue
  split <;> rfl

@[simp]
theorem locked_enqueue (sources : Sources) (script : Script) :
    (sources.enqueue script).locked = sources.locked := by
  unfold enqueue
  split <;> rfl

/-- Nothing happens when a tracked script is put in again. -/
theorem enqueue_eq_self {sources : Sources} {script : Script} (h : script.key ∈ sources.keys) :
    sources.enqueue script = sources := by
  unfold enqueue
  rw [dif_pos (containsKey_eq_true.mpr h)]

/-- A new script is put behind the others. -/
theorem entries_enqueue {sources : Sources} {script : Script} (h : script.key ∉ sources.keys) :
    (sources.enqueue script).entries = sources.entries ++ [⟨script, .queued⟩] := by
  unfold enqueue
  rw [dif_neg fun hcontains => h (containsKey_eq_true.mp hcontains)]

theorem keys_enqueue {sources : Sources} {script : Script} (h : script.key ∉ sources.keys) :
    (sources.enqueue script).keys = sources.keys ++ [script.key] := by
  rw [keys, entries_enqueue h, List.map_append]
  rfl

/-! ## The next script -/

/-- The next script is tracked and waits. -/
theorem nextReady?_eq_some {sources : Sources} {script : Script}
    (h : sources.nextReady? = some script) : ⟨script, .queued⟩ ∈ sources.entries := by
  obtain ⟨entry, hfind, rfl⟩ := Option.map_eq_some_iff.mp h
  have hstage : entry.stage = .queued := by
    simpa [Tracked.isQueued] using List.find?_some hfind
  have hmem := List.mem_of_find?_eq_some hfind
  cases entry
  simp only at hstage
  subst hstage
  exact hmem

/-- There is no next script exactly if every script is done. -/
theorem nextReady?_eq_none_iff {sources : Sources} :
    sources.nextReady? = none ↔ ∀ entry ∈ sources.entries, entry.stage = .done := by
  rw [nextReady?, Option.map_eq_none_iff, List.find?_eq_none]
  refine forall_congr' fun entry => imp_congr_right fun _ => ?_
  cases hstage : entry.stage <;> simp [Tracked.isQueued, hstage]

/-! ## Growth -/

/-- The sources hold what they held before, in another order, with waiting scripts added that
satisfy `eligible`. Under the lock nothing is added. -/
structure Grows (eligible : Script → Prop) (before after : Sources) : Prop where
  scheme : after.scheme = before.scheme
  locked : after.locked = before.locked
  entries : ∃ added : List Script,
    after.entries.Perm (before.entries ++ added.map fun script => ⟨script, .queued⟩) ∧
      (∀ script ∈ added, eligible script) ∧ (before.locked = true → added = [])

namespace Grows

variable {eligible : Script → Prop} {before middle after : Sources}

protected theorem refl (sources : Sources) : Grows eligible sources sources :=
  ⟨rfl, rfl, [], by simp, by simp, fun _ => rfl⟩

protected theorem trans (h : Grows eligible before middle) (h' : Grows eligible middle after) :
    Grows eligible before after := by
  obtain ⟨added, hperm, heligible, hlock⟩ := h.entries
  obtain ⟨more, hperm', heligible', hlock'⟩ := h'.entries
  refine ⟨h'.scheme.trans h.scheme, h'.locked.trans h.locked, added ++ more, ?_, ?_, ?_⟩
  · rw [List.map_append, ← List.append_assoc]
    exact hperm'.trans (hperm.append_right _)
  · intro script hscript
    rcases List.mem_append.mp hscript with hscript | hscript
    · exact heligible script hscript
    · exact heligible' script hscript
  · intro hlocked
    rw [hlock hlocked, hlock' (h.locked.trans hlocked), List.append_nil]

/-- A move is growth by nothing. -/
theorem moveToEnd (sources : Sources) (key : String) :
    Grows eligible sources (sources.moveToEnd key) :=
  ⟨rfl, rfl, [], by simpa using sources.entries_moveToEnd_perm key, by simp, fun _ => rfl⟩

/-- Without the lock, putting a script in is growth by at most this script. -/
theorem enqueue {sources : Sources} {script : Script} (hlock : sources.locked = false)
    (heligible : eligible script) : Grows eligible sources (sources.enqueue script) := by
  by_cases hkey : script.key ∈ sources.keys
  · rw [enqueue_eq_self hkey]
    exact .refl sources
  · refine ⟨by simp, by simp, [script], ?_, by simpa using heligible, by simp [hlock]⟩
    rw [entries_enqueue hkey]
    exact .refl _

/-- What was tracked is tracked as it was. -/
theorem mem_of_mem (h : Grows eligible before after) {entry : Tracked}
    (hentry : entry ∈ before.entries) : entry ∈ after.entries := by
  obtain ⟨added, hperm, -, -⟩ := h.entries
  exact hperm.mem_iff.mpr (List.mem_append_left _ hentry)

/-- What is tracked was tracked before, or is new and waits. -/
theorem mem_cases (h : Grows eligible before after) {entry : Tracked}
    (hentry : entry ∈ after.entries) :
    entry ∈ before.entries ∨
      entry.stage = .queued ∧ eligible entry.script ∧ entry.key ∉ before.keys := by
  obtain ⟨added, hperm, heligible, -⟩ := h.entries
  rcases List.mem_append.mp (hperm.mem_iff.mp hentry) with hold | hnew
  · exact .inl hold
  · obtain ⟨script, hscript, rfl⟩ := List.mem_map.mp hnew
    refine .inr ⟨rfl, heligible script hscript, fun hkey => ?_⟩
    have hdistinct := (hperm.map Tracked.key).nodup_iff.mp after.distinct
    rw [List.map_append] at hdistinct
    exact List.disjoint_of_nodup_append hdistinct hkey (List.mem_map_of_mem hnew)

theorem mem_keys_of_mem (h : Grows eligible before after) {key : String}
    (hkey : key ∈ before.keys) :
    key ∈ after.keys := by
  obtain ⟨entry, hentry, rfl⟩ := Sources.mem_keys.mp hkey
  exact Sources.mem_keys.mpr ⟨entry, h.mem_of_mem hentry, rfl⟩

/-- Under the lock the scripts are only put into another order. -/
theorem perm_of_locked (h : Grows eligible before after) (hlock : before.locked = true) :
    after.entries.Perm before.entries := by
  obtain ⟨added, hperm, -, hnone⟩ := h.entries
  simpa [hnone hlock] using hperm

end Grows

end Sources

/-! ## Sessions

Each change of a session is the change of its sources of the same name, whatever is noted beside
it. -/

namespace Session

@[simp]
theorem sources_note (session : Session) (level : Level) (message : String)
    (fields : List (String × NoteValue)) :
    (session.note level message fields).sources = session.sources := rfl

@[simp]
theorem sources_addNotes (session : Session) (notes : List Note) :
    (session.addNotes notes).sources = session.sources := rfl

@[simp]
theorem sources_setLock (session : Session) (locked : Bool) :
    (session.setLock locked).sources = session.sources.setLock locked := rfl

@[simp]
theorem sources_setScheme_none (session : Session) :
    (session.setScheme none).sources = session.sources := rfl

@[simp]
theorem sources_setScheme_some (session : Session) (scheme : Scheme) :
    (session.setScheme (some scheme)).sources = session.sources.setScheme scheme := rfl

@[simp]
theorem sources_enqueue (session : Session) (script : Script) :
    (session.enqueue script).sources = session.sources.enqueue script := by
  unfold enqueue
  split
  · next h => rw [Sources.enqueue_eq_self (Sources.containsKey_eq_true.mp h)]
  · rfl

@[simp]
theorem sources_setStage (session : Session) (key : String) (stage : Stage) :
    (session.setStage key stage).sources = session.sources.setStage key stage := by
  unfold setStage
  split
  · next h => rw [Sources.setStage_eq_self stage (Sources.find?_eq_none_iff.mp h)]
  · rfl

@[simp]
theorem sources_moveToEnd (session : Session) (key : String) :
    (session.moveToEnd key).sources = session.sources.moveToEnd key := by
  unfold moveToEnd
  split
  · next h => rw [Sources.moveToEnd_eq_self (Sources.find?_eq_none_iff.mp h)]
  · rfl

/-- An attempt to make a script leaves the sources alone. -/
theorem tryCreate?_eq (session : Session) (separator : String) (rawLines : List String)
    (resolution : Resolution) :
    ∃ after, session.tryCreate? separator rawLines resolution =
      (session.sources.tryCreate? separator rawLines resolution, after) ∧
        after.sources = session.sources := by
  unfold tryCreate?
  split <;> exact ⟨_, rfl, rfl⟩

end Session

end SourceWeave
