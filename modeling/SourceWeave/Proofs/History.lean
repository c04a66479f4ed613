import SourceWeave.Proofs.Tracking
import Mathlib.Data.List.Dedup
import Mathlib.Data.List.Find
import Mathlib.Data.List.Sort
import Mathlib.Data.List.TakeWhile

/-!
# Sources as a record of what was asked of them

Any sequence of operations on a session leaves the sources in a state that can be read off the
requests alone. Read `History.script?`, `History.stage?` and `History.order` first: a key stands for
the first script that was put in under it, its stage is the one last asked for since then, and the
keys are ordered by the time at which each was last moved. The main statement is
`operations_agree_with_history`. The step lemma is `History.Describes.perform`.
-/

namespace SourceWeave

/-! ## Operations -/

/-- A request to put a script in, or one about the script with a key. -/
inductive Request where
  /-- To put a script behind the others. -/
  | enqueue (script : Script)
  /-- To change how far a script has come. -/
  | setStage (key : String) (stage : Stage)
  /-- To move a script to the end. -/
  | moveToEnd (key : String)

namespace Request

/-- Does what is requested. -/
def perform : Request → Session → Session
  | enqueue script, session => session.enqueue script
  | setStage key stage, session => session.setStage key stage
  | moveToEnd key, session => session.moveToEnd key

/-- The script that a request offers for a key. -/
def scriptFor? (key : String) : Request → Option Script
  | enqueue script => if script.key = key then some script else none
  | _ => none

/-- The stage that a request asks for a key. -/
def stageFor? (key : String) : Request → Option Stage
  | setStage other stage => if other = key then some stage else none
  | _ => none

/-- The key under which a request puts a script in. -/
def offeredKey? : Request → Option String
  | enqueue script => some script.key
  | _ => none

end Request

/-- The requests made so far, from the first to the last. -/
abbrev History := List Request

/-- An operation on a session. -/
inductive Operation where
  /-- A request about a script. -/
  | request (request : Request)
  /-- An attempt to make a script. -/
  | tryCreate (separator : String) (rawLines : List String) (resolution : Resolution)
  /-- A reference to resolve. -/
  | resolve (tokens : List String) (directory : Path)
  /-- To lock or unlock the creation of scripts. -/
  | setLock (locked : Bool)
  /-- To take another scheme into use. -/
  | setScheme (scheme? : Option Scheme)
  /-- To do some work while the creation of scripts is unlocked. -/
  | ingest (work : List Operation)

namespace Operation

mutual

/-- The session behind an operation. -/
def perform : Operation → Session → Session
  | request r, session => r.perform session
  | tryCreate separator rawLines resolution, session =>
    (session.tryCreate? separator rawLines resolution).2
  | resolve _ _, session => session
  | setLock locked, session => session.setLock locked
  | setScheme scheme?, session => session.setScheme scheme?
  | ingest work, session => (session.whileIngesting fun opened => ((), performAll work opened)).2

/-- The session behind operations, one after another. -/
def performAll : List Operation → Session → Session
  | [], session => session
  | operation :: rest, session => performAll rest (perform operation session)

end

mutual

/-- The requests that an operation makes. -/
def requests : Operation → History
  | request r => [r]
  | ingest work => requestsAll work
  | tryCreate _ _ _ | resolve _ _ | setLock _ | setScheme _ => []

/-- The requests that operations make, from the first to the last. -/
def requestsAll : List Operation → History
  | [] => []
  | operation :: rest => requests operation ++ requestsAll rest

end

end Operation

/-! ## What a history tells -/

namespace History

/-- The script of a key: the first one that was put in under it. -/
def script? (history : History) (key : String) : Option Script :=
  history.findSome? (Request.scriptFor? key)

/-- Tells whether a script was put in under a key. -/
def tracks (history : History) (key : String) : Bool :=
  (history.script? key).isSome

/-- The stage of a key: the one last asked for since the script was put in. -/
def stage? (history : History) (key : String) : Option Stage :=
  match history.dropWhile fun request => (request.scriptFor? key).isNone with
  | [] => none
  | _ :: later => some ((later.filterMap (Request.stageFor? key)).getLastD .queued)

/-- The key that a request moves to the end, behind the requests of `past`. A script that is put in
moves if it is new, and any other if it is tracked. -/
def movedBy? (past : History) : Request → Option String
  | .enqueue script => if past.tracks script.key then none else some script.key
  | .moveToEnd key => if past.tracks key then some key else none
  | .setStage _ _ => none

/-- The key that was moved at a time. -/
def movedAt? (history : History) (time : Nat) : Option String :=
  history[time]?.bind (movedBy? (history.take time))

/-- The time at which a key was last moved. -/
def lastMove (history : History) (key : String) : Nat :=
  ((List.range history.length).filter fun time => history.movedAt? time = some key).getLastD 0

/-- The keys under which scripts were put in. -/
def keys (history : History) : List String :=
  (history.filterMap Request.offeredKey?).dedup

/-- The keys in the order in which they were last moved. -/
def order (history : History) : List String :=
  history.keys.mergeSort fun a b => history.lastMove a ≤ history.lastMove b

/-- Tells whether the script of a key waits. -/
def waits (history : History) (key : String) : Bool :=
  history.stage? key = some .queued

/-! ## One more request -/

theorem script?_append (history : History) (request : Request) (key : String) :
    script? (history ++ [request]) key = (history.script? key).or (request.scriptFor? key) := by
  simp [script?, List.findSome?_append]

theorem tracks_append (history : History) (request : Request) (key : String) :
    tracks (history ++ [request]) key =
      (history.tracks key || (request.scriptFor? key).isSome) := by
  simp [tracks, script?_append]

/-- A key is tracked from the first request on that offers a script for it. -/
theorem dropWhile_eq_nil_iff {history : History} {key : String} :
    (history.dropWhile fun request => (request.scriptFor? key).isNone) = [] ↔
      history.tracks key = false := by
  rw [List.dropWhile_eq_nil_iff, tracks, script?, Option.isSome_eq_false_iff,
    Option.isNone_iff_eq_none, List.findSome?_eq_none_iff]
  simp only [Option.isNone_iff_eq_none]

/-- One more request changes the stage that it asks for. -/
theorem stage?_append_of_tracks {history : History} {key : String} (h : history.tracks key = true)
    (request : Request) :
    stage? (history ++ [request]) key =
      (history.stage? key).map fun stage => (request.stageFor? key).getD stage := by
  have hne := mt dropWhile_eq_nil_iff.mp (Bool.eq_false_iff.not_left.mpr h)
  simp only [stage?]
  rw [List.dropWhile_append, if_neg (by simpa using hne)]
  cases hlater : history.dropWhile fun request => (request.scriptFor? key).isNone with
  | nil => exact absurd hlater hne
  | cons first later =>
      simp only [List.cons_append, List.filterMap_append, List.getLastD_eq_getLast?,
        List.getLast?_append, Option.map_some]
      cases hstage : request.stageFor? key <;> simp [hstage]

/-- A key that is not tracked gets its first stage from the request that puts a script in. -/
theorem stage?_append_of_not_tracks {history : History} {key : String}
    (h : history.tracks key = false) (request : Request) :
    stage? (history ++ [request]) key =
      if (request.scriptFor? key).isSome then some .queued else none := by
  have hnil := dropWhile_eq_nil_iff.mpr h
  simp only [stage?]
  rw [List.dropWhile_append, if_pos (by simp [hnil])]
  cases hscript : request.scriptFor? key <;> simp [hscript]

theorem script?_eq_none {history : History} {key : String} (h : history.tracks key = false) :
    history.script? key = none := by
  simpa [tracks] using h

theorem stage?_eq_none {history : History} {key : String} (h : history.tracks key = false) :
    history.stage? key = none := by
  rw [stage?, dropWhile_eq_nil_iff.mpr h]

theorem movedAt?_append_of_lt {history : History} {time : Nat} (h : time < history.length)
    (request : Request) : movedAt? (history ++ [request]) time = history.movedAt? time := by
  rw [movedAt?, movedAt?, List.getElem?_append_left h, List.take_append_of_le_length h.le]

theorem movedAt?_append_length (history : History) (request : Request) :
    movedAt? (history ++ [request]) history.length = movedBy? history request := by
  simp [movedAt?]

/-- One more request moves at most one key, and that at the latest time. -/
theorem lastMove_append (history : History) (request : Request) (key : String) :
    lastMove (history ++ [request]) key =
      if movedBy? history request = some key then history.length else history.lastMove key := by
  have hpast : (List.range history.length).filter
        (fun time => movedAt? (history ++ [request]) time = some key) =
      (List.range history.length).filter fun time => history.movedAt? time = some key :=
    List.filter_congr fun time htime => by
      rw [movedAt?_append_of_lt (List.mem_range.mp htime)]
  rw [lastMove, List.length_append, List.length_singleton, List.range_succ, List.filter_append,
    hpast, List.filter_singleton, movedAt?_append_length]
  split
  · next h => rw [decide_eq_true h, cond_true, List.getLastD_concat]
  · next h => rw [decide_eq_false h, cond_false, List.append_nil, lastMove]

/-- What was tracked was last moved in the past. -/
theorem lastMove_lt {history : History} {key : String} (h : history.tracks key = true) :
    history.lastMove key < history.length := by
  rw [lastMove, List.getLastD_eq_getLast?]
  cases hlast : ((List.range history.length).filter fun time =>
      history.movedAt? time = some key).getLast? with
  | none =>
      cases history with
      | nil => exact absurd h (by simp [tracks, script?])
      | cons => simp
  | some time =>
      have hmem := List.mem_of_getLast? hlast
      exact List.mem_range.mp (List.mem_filter.mp hmem).1

theorem mem_keys {history : History} {key : String} :
    key ∈ history.keys ↔ history.tracks key = true := by
  rw [keys, List.mem_dedup, List.mem_filterMap, tracks, script?, List.isSome_findSome?,
    List.any_eq_true]
  refine exists_congr fun request => and_congr_right fun _ => ?_
  cases request <;> simp [Request.offeredKey?, Request.scriptFor?]

/-! ## Sources and their history -/

/-- The entries of the sources are those that the history tells of, in the order of their last
moves. -/
structure Describes (history : History) (sources : Sources) : Prop where
  script_eq : ∀ entry ∈ sources.entries, history.script? entry.key = some entry.script
  stage_eq : ∀ entry ∈ sources.entries, history.stage? entry.key = some entry.stage
  mem_keys : ∀ key, key ∈ sources.keys ↔ history.tracks key = true
  ordered : sources.keys.Pairwise fun a b => history.lastMove a < history.lastMove b

namespace Describes

variable {history : History} {sources : Sources}

/-- The history of sources without entries is empty. -/
theorem empty (cwd : Path) : Describes [] (.empty cwd) :=
  ⟨by simp [Sources.empty], by simp [Sources.empty],
    by simp [Sources.empty, Sources.keys, tracks, script?], List.Pairwise.nil⟩

/-- The history does not tell of the lock and the scheme. -/
theorem of_entries_eq {other : Sources} (h : Describes history sources)
    (heq : other.entries = sources.entries) : Describes history other := by
  have hkeys : other.keys = sources.keys := by rw [Sources.keys, heq, Sources.keys]
  refine ⟨?_, ?_, ?_, ?_⟩
  · rw [heq]
    exact h.script_eq
  · rw [heq]
    exact h.stage_eq
  · rw [hkeys]
    exact h.mem_keys
  · rw [hkeys]
    exact h.ordered

theorem not_mem_keys (h : Describes history sources) {key : String}
    (hkey : history.tracks key = false) : key ∉ sources.keys := by
  rw [h.mem_keys, hkey]
  exact Bool.false_ne_true

theorem tracks_of_mem (h : Describes history sources) {entry : Tracked}
    (hentry : entry ∈ sources.entries) : history.tracks entry.key = true :=
  (h.mem_keys _).mp (Sources.mem_keys.mpr ⟨entry, hentry, rfl⟩)

/-- A request that moves nothing, offers no new script and asks for no stage of a tracked key leaves
the description as it is. -/
theorem append_idle (h : Describes history sources) {request : Request}
    (hscript : ∀ key, history.tracks key = false → request.scriptFor? key = none)
    (hstage : ∀ key, history.tracks key = true → request.stageFor? key = none)
    (hmove : movedBy? history request = none) : Describes (history ++ [request]) sources := by
  refine ⟨fun entry hentry => ?_, fun entry hentry => ?_, fun key => ?_, ?_⟩
  · rw [script?_append, h.script_eq entry hentry, Option.some_or]
  · have htracks := h.tracks_of_mem hentry
    rw [stage?_append_of_tracks htracks, hstage _ htracks, h.stage_eq entry hentry]
    rfl
  · rw [h.mem_keys, tracks_append]
    cases htracks : history.tracks key with
    | true => simp
    | false => simp [hscript key htracks]
  · refine h.ordered.imp fun hlt => ?_
    rwa [lastMove_append, lastMove_append, hmove, if_neg (by simp), if_neg (by simp)]

/-- A new script is put in. -/
theorem append_enqueue (h : Describes history sources) {script : Script}
    (hnew : history.tracks script.key = false) :
    Describes (history ++ [.enqueue script]) (sources.enqueue script) := by
  have hkey := h.not_mem_keys hnew
  have hmove : movedBy? history (.enqueue script) = some script.key := by simp [movedBy?, hnew]
  have hother : ∀ {key}, key ∈ sources.keys → script.key ≠ key :=
    fun hmem heq => hkey (heq ▸ hmem)
  refine ⟨fun entry hentry => ?_, fun entry hentry => ?_, fun key => ?_, ?_⟩
  · rw [Sources.entries_enqueue hkey, List.mem_append, List.mem_singleton] at hentry
    rw [script?_append]
    rcases hentry with hentry | rfl
    · rw [h.script_eq entry hentry, Option.some_or]
    · show (history.script? script.key).or _ = some script
      rw [script?_eq_none hnew]
      simp [Request.scriptFor?, Tracked.key]
  · rw [Sources.entries_enqueue hkey, List.mem_append, List.mem_singleton] at hentry
    rcases hentry with hentry | rfl
    · rw [stage?_append_of_tracks (h.tracks_of_mem hentry), h.stage_eq entry hentry]
      rfl
    · show stage? (history ++ [.enqueue script]) script.key = some .queued
      rw [stage?_append_of_not_tracks hnew]
      simp [Request.scriptFor?]
  · rw [Sources.keys_enqueue hkey, List.mem_append, List.mem_singleton, h.mem_keys, tracks_append,
      @eq_comm _ key]
    simp [Request.scriptFor?]
  · rw [Sources.keys_enqueue hkey, List.pairwise_append]
    refine ⟨?_, List.pairwise_singleton _ _, ?_⟩
    · refine h.ordered.imp_of_mem fun ha hb hlt => ?_
      rwa [lastMove_append, lastMove_append, hmove, if_neg (by simpa using hother ha),
        if_neg (by simpa using hother hb)]
    · intro key hmem last hlast
      obtain rfl := List.mem_singleton.mp hlast
      rw [lastMove_append, lastMove_append, hmove, if_neg (by simpa using hother hmem), if_pos rfl]
      exact lastMove_lt ((h.mem_keys key).mp hmem)

/-- The stage of a key is changed. -/
theorem append_setStage (h : Describes history sources) (key : String) (stage : Stage) :
    Describes (history ++ [.setStage key stage]) (sources.setStage key stage) := by
  have hmove : movedBy? history (.setStage key stage) = none := rfl
  refine ⟨fun entry hentry => ?_, fun entry hentry => ?_, fun other => ?_, ?_⟩
  · obtain ⟨old, hold, rfl⟩ := Sources.mem_setStage.mp hentry
    have hscript : script? (history ++ [.setStage key stage]) old.key = some old.script := by
      rw [script?_append, h.script_eq old hold, Option.some_or]
    split <;> exact hscript
  · obtain ⟨old, hold, rfl⟩ := Sources.mem_setStage.mp hentry
    have hstage := h.stage_eq old hold
    have htracks := h.tracks_of_mem hold
    split
    · next heq =>
      refine (stage?_append_of_tracks htracks _).trans ?_
      rw [hstage]
      simp [Request.stageFor?, heq]
    · next hne =>
      rw [stage?_append_of_tracks htracks, hstage]
      simp [Request.stageFor?, Ne.symm hne]
  · rw [Sources.keys_setStage, h.mem_keys, tracks_append]
    simp [Request.scriptFor?]
  · rw [Sources.keys_setStage]
    refine h.ordered.imp fun hlt => ?_
    rwa [lastMove_append, lastMove_append, hmove, if_neg (by simp), if_neg (by simp)]

/-- A tracked key is moved to the end. -/
theorem append_moveToEnd (h : Describes history sources) {key : String}
    (htracks : history.tracks key = true) :
    Describes (history ++ [.moveToEnd key]) (sources.moveToEnd key) := by
  have hkey := (h.mem_keys key).mpr htracks
  have hmove : movedBy? history (.moveToEnd key) = some key := by simp [movedBy?, htracks]
  have hentries := sources.entries_moveToEnd_perm key
  refine ⟨fun entry hentry => ?_, fun entry hentry => ?_, fun other => ?_, ?_⟩
  · rw [script?_append, h.script_eq entry (hentries.mem_iff.mp hentry), Option.some_or]
  · have hold := hentries.mem_iff.mp hentry
    rw [stage?_append_of_tracks (h.tracks_of_mem hold), h.stage_eq entry hold]
    rfl
  · have hperm : (sources.moveToEnd key).keys.Perm sources.keys := hentries.map Tracked.key
    rw [hperm.mem_iff, h.mem_keys, tracks_append]
    simp [Request.scriptFor?]
  · have hother : ∀ {other}, other ∈ sources.keys.erase key → key ≠ other := by
      rintro other hmem rfl
      exact sources.keys_nodup.not_mem_erase hmem
    rw [Sources.keys_moveToEnd hkey, List.pairwise_append]
    refine ⟨?_, List.pairwise_singleton _ _, ?_⟩
    · refine (h.ordered.sublist List.erase_sublist).imp_of_mem fun ha hb hlt => ?_
      rwa [lastMove_append, lastMove_append, hmove, if_neg (by simpa using hother ha),
        if_neg (by simpa using hother hb)]
    · intro other hmem last hlast
      obtain rfl := List.mem_singleton.mp hlast
      rw [lastMove_append, lastMove_append, hmove, if_neg (by simpa using hother hmem), if_pos rfl]
      exact lastMove_lt ((h.mem_keys other).mp (List.mem_of_mem_erase hmem))

/-- Each request keeps the history a description of the sources. -/
theorem perform {session : Session} (h : Describes history session.sources) (request : Request) :
    Describes (history ++ [request]) (request.perform session).sources := by
  cases request with
  | enqueue script =>
      rw [Request.perform, Session.sources_enqueue]
      cases htracks : history.tracks script.key with
      | false => exact h.append_enqueue htracks
      | true =>
          rw [Sources.enqueue_eq_self ((h.mem_keys _).mpr htracks)]
          refine h.append_idle (fun key hnew => ?_) (fun _ _ => rfl) (by simp [movedBy?, htracks])
          refine if_neg fun heq => ?_
          rw [heq, hnew] at htracks
          exact Bool.false_ne_true htracks
  | setStage key stage =>
      rw [Request.perform, Session.sources_setStage]
      exact h.append_setStage key stage
  | moveToEnd key =>
      rw [Request.perform, Session.sources_moveToEnd]
      cases htracks : history.tracks key with
      | true => exact h.append_moveToEnd htracks
      | false =>
          rw [Sources.moveToEnd_eq_self (h.not_mem_keys htracks)]
          exact h.append_idle (fun _ _ => rfl) (fun _ _ => rfl) (by simp [movedBy?, htracks])

/-! ## What the sources answer -/

theorem find?_map_script (h : Describes history sources) (key : String) :
    (sources.find? key).map (·.script) = history.script? key := by
  cases hfind : sources.find? key with
  | none =>
      have hkey := Sources.find?_eq_none_iff.mp hfind
      rw [h.mem_keys, Bool.not_eq_true] at hkey
      rw [script?_eq_none hkey, Option.map_none]
  | some entry =>
      obtain rfl : entry.key = key := by simpa using List.find?_some hfind
      rw [h.script_eq entry (List.mem_of_find?_eq_some hfind), Option.map_some]

theorem stageOf?_eq (h : Describes history sources) (key : String) :
    sources.stageOf? key = history.stage? key := by
  rw [Sources.stageOf?]
  cases hfind : sources.find? key with
  | none =>
      have hkey := Sources.find?_eq_none_iff.mp hfind
      rw [h.mem_keys, Bool.not_eq_true] at hkey
      rw [stage?_eq_none hkey, Option.map_none]
  | some entry =>
      obtain rfl : entry.key = key := by simpa using List.find?_some hfind
      rw [h.stage_eq entry (List.mem_of_find?_eq_some hfind), Option.map_some]

theorem containsKey_eq (h : Describes history sources) (key : String) :
    sources.containsKey key = history.tracks key := by
  rw [Bool.eq_iff_iff, Sources.containsKey_eq_true, h.mem_keys]

/-- No two keys of the sources were last moved at the same time. -/
theorem eq_of_lastMove_eq (h : Describes history sources) {a b : String} (ha : a ∈ sources.keys)
    (hb : b ∈ sources.keys) (heq : history.lastMove a = history.lastMove b) : a = b := by
  have htimes : (sources.keys.map history.lastMove).Nodup :=
    List.pairwise_map.mpr (h.ordered.imp ne_of_lt)
  exact List.inj_on_of_nodup_map htimes ha hb heq

/-- The order of the sources is fixed by the times of the moves. -/
theorem keys_eq_order (h : Describes history sources) : sources.keys = history.order := by
  have hkeys : sources.keys.Perm history.keys :=
    (List.perm_ext_iff_of_nodup sources.keys_nodup (List.nodup_dedup _)).mpr fun key =>
      (h.mem_keys key).trans History.mem_keys.symm
  have hperm : sources.keys.Perm history.order := hkeys.trans (List.mergeSort_perm _ _).symm
  have hsorted : history.order.Pairwise fun a b =>
      decide (history.lastMove a ≤ history.lastMove b) = true :=
    List.pairwise_mergeSort (fun a b c => by simpa using Nat.le_trans)
      (fun a b => by simpa using Nat.le_total _ _) _
  refine hperm.eq_of_pairwise (fun a b ha hb hab hba => ?_)
    (h.ordered.imp fun hlt => decide_eq_true hlt.le) hsorted
  exact h.eq_of_lastMove_eq ha (hperm.mem_iff.mpr hb)
    (Nat.le_antisymm (of_decide_eq_true hab) (of_decide_eq_true hba))

/-- An entry waits if its key does. -/
theorem isQueued_eq (h : Describes history sources) {entry : Tracked}
    (hentry : entry ∈ sources.entries) : entry.isQueued = history.waits entry.key := by
  rw [waits, h.stage_eq entry hentry, Tracked.isQueued, beq_eq_decide]
  simp

theorem pendingCount_eq (h : Describes history sources) :
    sources.pendingCount = (history.order.filter history.waits).length := by
  rw [← h.keys_eq_order, Sources.keys, List.filter_map, List.length_map, Sources.pendingCount]
  exact congrArg List.length (List.filter_congr fun entry hentry => h.isQueued_eq hentry)

theorem nextReady?_eq (h : Describes history sources) :
    sources.nextReady? = (history.order.find? history.waits).bind history.script? := by
  have hfind : sources.entries.find? Tracked.isQueued =
      sources.entries.find? (history.waits ∘ Tracked.key) :=
    List.find?_congr fun entry hentry => h.isQueued_eq hentry
  rw [← h.keys_eq_order, Sources.keys, List.find?_map, Sources.nextReady?, hfind]
  cases hnext : sources.entries.find? (history.waits ∘ Tracked.key) with
  | none => rfl
  | some entry =>
      rw [Option.map_some, Option.map_some, Option.bind_some,
        h.script_eq entry (List.mem_of_find?_eq_some hnext)]

end Describes

end History

/-! ## Sequences of operations -/

namespace Operation

mutual

/-- An operation keeps the history, with its own requests added, a description of the sources. -/
theorem perform_describes {history : History} {session : Session} :
    ∀ operation : Operation, history.Describes session.sources →
      History.Describes (history ++ operation.requests) (operation.perform session).sources
  | .request r, h => h.perform r
  | .tryCreate separator rawLines resolution, h => by
      obtain ⟨after, hcreate, hafter⟩ := session.tryCreate?_eq separator rawLines resolution
      rw [requests, List.append_nil, perform, hcreate, hafter]
      exact h
  | .resolve _ _, h => by rwa [requests, List.append_nil]
  | .setLock locked, h => by
      rw [requests, List.append_nil]
      exact h.of_entries_eq rfl
  | .setScheme none, h => by rwa [requests, List.append_nil]
  | .setScheme (some scheme), h => by
      rw [requests, List.append_nil]
      exact h.of_entries_eq rfl
  | .ingest work, h => by
      -- the history does not tell of the lock, so it goes on through the work
      have hopened : history.Describes (session.setLock false).sources := h.of_entries_eq rfl
      exact (performAll_describes work hopened).of_entries_eq rfl

/-- What each operation keeps, operations one after another keep. -/
theorem performAll_describes {history : History} {session : Session} :
    ∀ operations : List Operation, history.Describes session.sources →
      History.Describes (history ++ requestsAll operations) (performAll operations session).sources
  | [], h => by rwa [requestsAll, List.append_nil]
  | operation :: rest, h => by
      rw [requestsAll, ← List.append_assoc]
      exact performAll_describes rest (perform_describes operation h)

end

end Operation

/-- A session answers every question about its scripts as the history tells, and a request that the
history makes idle leaves it as it is. -/
structure Session.AgreesWith (session : Session) (history : History) : Prop where
  nodup : session.sources.keys.Nodup
  keys_eq : session.sources.keys = history.order
  ordered : session.sources.keys.Pairwise fun a b => history.lastMove a < history.lastMove b
  script_eq : ∀ key, (session.sources.find? key).map (·.script) = history.script? key
  stageOf?_eq : ∀ key, session.sources.stageOf? key = history.stage? key
  containsKey_eq : ∀ key, session.sources.containsKey key = history.tracks key
  size_eq : session.sources.size = history.order.length
  pendingCount_eq : session.sources.pendingCount = (history.order.filter history.waits).length
  nextReady?_eq :
    session.sources.nextReady? = (history.order.find? history.waits).bind history.script?
  enqueue_eq_self : ∀ script, history.tracks script.key = true → session.enqueue script = session
  setStage_eq_self : ∀ key stage, history.tracks key = false → session.setStage key stage = session
  moveToEnd_eq_self : ∀ key, history.tracks key = false → session.moveToEnd key = session

/-- Behind any sequence of operations the session answers as the history of its requests tells. -/
theorem operations_agree_with_history (cwd : Path) (operations : List Operation) :
    (Operation.performAll operations (Session.start cwd)).AgreesWith
      (Operation.requestsAll operations) := by
  have hstart : History.Describes [] (Session.start cwd).sources := .empty cwd
  have h := Operation.performAll_describes operations hstart
  generalize Operation.performAll operations (Session.start cwd) = session at h ⊢
  rw [List.nil_append] at h
  have hcontains := h.containsKey_eq
  have hfind : ∀ key, (Operation.requestsAll operations).tracks key = false →
      session.sources.find? key = none := fun key hkey =>
    Sources.find?_eq_none_iff.mpr (h.not_mem_keys hkey)
  refine ⟨session.sources.keys_nodup, h.keys_eq_order, h.ordered, h.find?_map_script, h.stageOf?_eq,
    hcontains, ?_, h.pendingCount_eq, h.nextReady?_eq, fun script htracks => ?_,
    fun key stage hkey => ?_, fun key hkey => ?_⟩
  · rw [← h.keys_eq_order, Sources.keys, List.length_map, Sources.size]
  · rw [Session.enqueue, hcontains, if_pos htracks]
  · rw [Session.setStage, hfind key hkey]
  · rw [Session.moveToEnd, hfind key hkey]

end SourceWeave
