import SourceWeave.Proofs.Tracking

/-!
# Handing out the waiting scripts

A session hands out the first script that waits and marks it as done, again and again. The script
is found by its stage and marked by its key, and both times it is the same entry, because no two
entries have the same key. So each turn takes one script from the front of those that wait and
touches nothing else: `Sources.waiting_eq_cons` is the step lemma, and `Session.exists_handOut` says
what any number of turns does. The main statement is `waiting_scripts_handed_out`. It holds of any
session, whatever was asked of it before.
-/

namespace SourceWeave

namespace Sources

variable {sources : Sources}

/-! ## Waiting scripts -/

/-- The scripts that wait, in order. -/
def waiting (sources : Sources) : List Script :=
  (sources.entries.filter Tracked.isQueued).map (·.script)

theorem length_waiting (sources : Sources) : sources.waiting.length = sources.pendingCount := by
  rw [waiting, List.length_map, pendingCount]

theorem waiting_sublist (sources : Sources) : sources.waiting.Sublist sources.scripts :=
  List.filter_sublist.map _

theorem waiting_eq_nil_iff : sources.waiting = [] ↔ sources.nextReady? = none := by
  rw [waiting, List.map_eq_nil_iff, List.filter_eq_nil_iff, nextReady?, Option.map_eq_none_iff,
    List.find?_eq_none]

/-- The stage of a key is the one of its entry. -/
theorem stageOf?_of_mem {entry : Tracked} (h : entry ∈ sources.entries) :
    sources.stageOf? entry.key = some entry.stage := by
  rw [stageOf?]
  cases hfind : sources.find? entry.key with
  | none => exact absurd (mem_keys.mpr ⟨entry, h, rfl⟩) (find?_eq_none_iff.mp hfind)
  | some other =>
      have hkey : other.key = entry.key := by simpa using List.find?_some hfind
      rw [entry_unique (List.mem_of_find?_eq_some hfind) h hkey, Option.map_some]

/-- The keys of the waiting scripts are those whose stage says so. -/
theorem map_key_waiting (sources : Sources) :
    sources.waiting.map Script.key =
      sources.keys.filter fun key => sources.stageOf? key = some .queued := by
  rw [waiting, List.map_map, keys, List.filter_map]
  refine congrArg (List.map Tracked.key) (List.filter_congr fun entry hentry => ?_)
  simp only [Function.comp, stageOf?_of_mem hentry]
  cases hstage : entry.stage <;> simp [Tracked.isQueued, hstage]

/-! ## One turn -/

/-- When the next script is done, those that wait are the others that waited. -/
theorem waiting_eq_cons {script : Script} (h : sources.nextReady? = some script) :
    sources.waiting = script :: (sources.setStage script.key .done).waiting := by
  obtain ⟨entry, hfind, rfl⟩ := Option.map_eq_some_iff.mp h
  obtain ⟨hqueued, front, back, hentries, hfront⟩ := List.find?_eq_some_iff_append.mp hfind
  have hnone : front.filter Tracked.isQueued = [] :=
    List.filter_eq_nil_iff.mpr fun other hother => by simpa using hfront other hother
  have hdone : (sources.setStage entry.key .done).entries =
      front ++ { entry with stage := .done } :: back := entries_setStage hentries .done
  have hbefore : sources.waiting =
      entry.script :: (back.filter Tracked.isQueued).map (·.script) := by
    rw [waiting, hentries, List.filter_append, hnone, List.nil_append,
      List.filter_cons_of_pos hqueued, List.map_cons]
  have hafter : (sources.setStage entry.key .done).waiting =
      (back.filter Tracked.isQueued).map (·.script) := by
    rw [waiting, hdone, List.filter_append, hnone, List.nil_append,
      List.filter_cons_of_neg (by simp [Tracked.isQueued])]
  rw [hbefore]
  exact congrArg (entry.script :: ·) hafter.symm

/-- The sources differ at most in how far their scripts have come. -/
structure SameButStages (before after : Sources) : Prop where
  scripts : after.scripts = before.scripts
  locked : after.locked = before.locked
  scheme : after.scheme = before.scheme

namespace SameButStages

variable {before middle after : Sources}

protected theorem refl (sources : Sources) : SameButStages sources sources :=
  ⟨rfl, rfl, rfl⟩

protected theorem trans (h : SameButStages before middle) (h' : SameButStages middle after) :
    SameButStages before after :=
  ⟨h'.scripts.trans h.scripts, h'.locked.trans h.locked, h'.scheme.trans h.scheme⟩

theorem setStage (sources : Sources) (key : String) (stage : Stage) :
    SameButStages sources (sources.setStage key stage) :=
  ⟨scripts_setStage sources key stage, rfl, rfl⟩

theorem keys (h : SameButStages before after) : after.keys = before.keys := by
  rw [keys_eq_map_scripts, keys_eq_map_scripts, h.scripts]

end SameButStages

end Sources

namespace Session

variable {session : Session} {count : Nat}

/-! ## Turn after turn -/

/-- Hands out exactly this many scripts, each the first one that waits, and marks each as done.
There is no result if fewer scripts wait. -/
def handOut : Nat → Session → Option (List Script × Session)
  | 0, session => some ([], session)
  | count + 1, session =>
    match session.sources.nextReady? with
    | none => none
    | some script =>
      (handOut count (session.setStage script.key .done)).map fun (handed, final) =>
        (script :: handed, final)

/-- No more scripts are handed out than wait. -/
theorem handOut_eq_none (h : session.sources.waiting.length < count) :
    session.handOut count = none := by
  induction count generalizing session with
  | zero => exact absurd h (Nat.not_lt_zero _)
  | succ count ih =>
      cases hnext : session.sources.nextReady? with
      | none => rw [handOut, hnext]
      | some script =>
          rw [Sources.waiting_eq_cons hnext, List.length_cons, Nat.succ_lt_succ_iff] at h
          rw [handOut, hnext]
          simp only [ih (by rwa [sources_setStage]), Option.map_none]

/-- As many scripts as wait can be handed out, from the front. The others still wait then, and but
for the stages all is as before. -/
theorem exists_handOut (h : count ≤ session.sources.waiting.length) :
    ∃ final, session.handOut count = some (session.sources.waiting.take count, final) ∧
      final.sources.waiting = session.sources.waiting.drop count ∧
      session.sources.SameButStages final.sources := by
  induction count generalizing session with
  | zero => exact ⟨session, rfl, rfl, .refl _⟩
  | succ count ih =>
      cases hnext : session.sources.nextReady? with
      | none =>
          rw [Sources.waiting_eq_nil_iff.mpr hnext] at h
          exact absurd h (Nat.not_succ_le_zero count)
      | some script =>
          have hwaiting := Sources.waiting_eq_cons hnext
          have hturn := Sources.SameButStages.setStage session.sources script.key .done
          rw [← sources_setStage] at hwaiting hturn
          rw [hwaiting, List.length_cons, Nat.succ_le_succ_iff] at h
          obtain ⟨final, hhanded, hleft, hsame⟩ := ih h
          refine ⟨final, ?_, ?_, hturn.trans hsame⟩
          · rw [handOut, hnext]
            simp only [hhanded, hwaiting, List.take_succ_cons, Option.map_some]
          · rw [hleft, hwaiting, List.drop_succ_cons]

/-- Turn after turn, a session hands out as many scripts as wait and no more. They are those whose
stage is that of a waiting script, each once and in the order of the sources. Behind them every
script is done, and nothing else has changed. -/
theorem waiting_scripts_handed_out (session : Session) :
    (∀ count, (session.handOut count).isSome = true ↔ count ≤ session.sources.pendingCount) ∧
    ∃ handed final, session.handOut session.sources.pendingCount = some (handed, final) ∧
      final.sources.nextReady? = none ∧
      handed.map Script.key =
        session.sources.keys.filter (fun key => session.sources.stageOf? key = some .queued) ∧
      (handed.map Script.key).Nodup ∧
      handed.Sublist session.sources.scripts ∧
      final.sources.keys = session.sources.keys ∧
      final.sources.scripts = session.sources.scripts ∧
      final.sources.locked = session.sources.locked ∧
      final.sources.scheme = session.sources.scheme ∧
      ∀ key ∈ session.sources.keys, final.sources.stageOf? key = some .done := by
  rw [← Sources.length_waiting]
  constructor
  · intro count
    refine ⟨fun hsome => ?_, fun hcount => ?_⟩
    · by_contra hmore
      rw [handOut_eq_none (Nat.lt_of_not_le hmore)] at hsome
      cases hsome
    · obtain ⟨final, hhanded, -⟩ := exists_handOut hcount
      rw [hhanded, Option.isSome_some]
  · obtain ⟨final, hhanded, hleft, hsame⟩ := session.exists_handOut (Nat.le_refl _)
    rw [List.take_length] at hhanded
    rw [List.drop_length, Sources.waiting_eq_nil_iff] at hleft
    have hkeys := session.sources.map_key_waiting
    refine ⟨_, final, hhanded, hleft, hkeys, hkeys ▸ session.sources.keys_nodup.filter _,
      session.sources.waiting_sublist, hsame.keys, hsame.scripts, hsame.locked, hsame.scheme, ?_⟩
    intro key hkey
    rw [← hsame.keys] at hkey
    obtain ⟨entry, hentry, rfl⟩ := Sources.mem_keys.mp hkey
    rw [Sources.stageOf?_of_mem hentry, Sources.nextReady?_eq_none_iff.mp hleft entry hentry]

end Session

end SourceWeave
