import SourceWeave.Proofs.Configuration
import SourceWeave.Proofs.Course
import SourceWeave.Proofs.Phases

/-!
# Runs of built-in plugins

A turn of the first phase takes the sources to `Builtin.turnSources`, so what a whole first phase
keeps follows from what a turn keeps: `drains_induction`. `Progress` is kept by every turn and says
which scripts have been handed out and which lines are recorded for them. The second phase runs
under the lock and does not change which scripts there are: `finish_eq`.
-/

namespace SourceWeave

open Run

namespace Builtin

variable {plugins : List Builtin} {files : FileView} {job : Job}

/-- The lines that plugins can see: those of the script, and the removal keywords of the others. -/
def Seen (plugins : List Builtin) (lines : List String) (line : String) : Prop :=
  line ∈ lines ∨ ∃ plugin ∈ plugins, line = plugin.removalKeyword

/-- What a plugin makes of a line that can be seen can be seen. -/
theorem Seen.rewrite {lines : List String} {line : String} (h : Seen plugins lines line)
    {plugin : Builtin} (hplugin : plugin ∈ plugins) : Seen plugins lines (plugin.rewrite line) := by
  rcases plugin.rewrite_cases line with heq | heq
  · rw [heq]
    exact h
  · exact .inr ⟨plugin, hplugin, heq⟩

/-- Plugins let the sources grow by what the lines that they see lead to. -/
theorem sweepSources_grows {eligible : Script → Prop} {script : Script} {raw : List String}
    (running : List Builtin) (hrunning : ∀ plugin ∈ running, plugin ∈ plugins) (lines : List String)
    (hlines : ∀ line ∈ lines, Seen plugins raw line) (sources : Sources)
    (h : ∀ includer, .inl includer ∈ plugins → ∀ line, Seen plugins raw line →
      ∀ resolution ∈ includer.targets files sources.scheme script.directory script.key line,
        ∀ target : Script, target.LoadedFrom files includer.separator resolution →
          eligible target) :
    sources.Grows eligible (sweepSources files script running lines sources) := by
  induction running generalizing lines sources with
  | nil => exact .refl sources
  | cons plugin rest ih =>
      have hplugin := hrunning plugin (by simp)
      have hfirst : sources.Grows eligible (plugin.advance files script lines sources) := by
        cases plugin with
        | inl includer =>
            refine Sources.takeAll_grows fun resolution hresolution => ?_
            obtain ⟨line, hline, htarget⟩ := List.mem_flatMap.mp hresolution
            exact h includer hplugin line (hlines line hline) resolution htarget
        | inr remover => exact .refl sources
      refine hfirst.trans (ih (fun other hother => hrunning other (by simp [hother])) _ ?_ _ ?_)
      · intro line hline
        obtain ⟨old, hold, rfl⟩ := List.mem_map.mp hline
        exact (hlines old hold).rewrite hplugin
      · rw [hfirst.scheme]
        exact h

/-- A phase lets the sources grow by what the lines that the plugins see lead to. -/
theorem phaseSources_grows {eligible : Script → Prop} {phase : Phase} {script : Script}
    {lines : List String} {sources : Sources}
    (h : ∀ includer, .inl includer ∈ plugins → ∀ line, Seen plugins lines line →
      ∀ resolution ∈ includer.targets files sources.scheme script.directory script.key line,
        ∀ target : Script, target.LoadedFrom files includer.separator resolution →
          eligible target) :
    sources.Grows eligible (phaseSources plugins files phase script lines sources) :=
  sweepSources_grows _ (fun _ hplugin => (mem_active.mp hplugin).1) lines
    (fun _ hline => .inl hline) sources h

/-- A phase keeps what is tracked. -/
theorem phaseSources_keeps (plugins : List Builtin) (files : FileView) (phase : Phase)
    (script : Script) (lines : List String) (sources : Sources) :
    sources.Grows (fun _ => True) (phaseSources plugins files phase script lines sources) :=
  phaseSources_grows fun _ _ _ _ _ _ _ _ => trivial

/-! ## The first phase -/

/-- The sources behind a turn of the first phase. -/
def turnSources (plugins : List Builtin) (files : FileView) (script : Script) (sources : Sources) :
    Sources :=
  (phaseSources plugins files .onLoad script script.rawLines sources).setStage script.key .done

@[simp]
theorem scheme_turnSources (script : Script) (sources : Sources) :
    (turnSources plugins files script sources).scheme = sources.scheme := by
  rw [turnSources, Sources.scheme_setStage, (phaseSources_keeps plugins files _ _ _ _).scheme]

@[simp]
theorem locked_turnSources (script : Script) (sources : Sources) :
    (turnSources plugins files script sources).locked = sources.locked := by
  rw [turnSources, Sources.locked_setStage, (phaseSources_keeps plugins files _ _ _ _).locked]

/-- What holds of all scripts still holds behind a turn, if it holds of the scripts taken in. -/
theorem forall_turnSources (known : Script → Prop) {script : Script} {sources : Sources}
    (hgrows : sources.Grows known
      (phaseSources plugins files .onLoad script script.rawLines sources))
    (h : ∀ entry ∈ sources.entries, known entry.script) :
    ∀ entry ∈ (turnSources plugins files script sources).entries, known entry.script := by
  intro entry hentry
  obtain ⟨old, hold, rfl⟩ := Sources.mem_setStage.mp hentry
  have hknown : known old.script := by
    rcases hgrows.mem_cases hold with hbefore | ⟨-, hnew, -⟩
    · exact h old hbefore
    · exact hnew
  split <;> exact hknown

/-- A turn of the first phase does not fail and leaves the chain as it is. -/
theorem processScript_eq (plugins : List Builtin) (job : Job) (hfiles : files.Readable)
    (script : Script) (session : Session) :
    ∃ after, processScript files job script ⟨.ofConfigured plugins, session⟩ =
        .ok (phaseLines plugins .onLoad script.rawLines) ⟨.ofConfigured plugins, after⟩ ∧
      after.sources = turnSources plugins files script session.sources := by
  obtain ⟨middle, hphase, hmiddle⟩ :=
    runPhase_eq plugins ⟨script, files, job.definitions⟩ hfiles .onLoad script.rawLines
      (session.note .debug "processing script" [("key", .bare script.key)])
  refine ⟨middle.setStage script.key .done, ?_, ?_⟩
  · exact (bind_of_ok rfl).trans ((bind_of_ok hphase).trans rfl)
  · rw [Session.sources_setStage, hmiddle]
    rfl

/-- What every turn keeps, the first phase keeps. -/
theorem drains_induction (hfiles : files.Readable)
    {motive : List Script → Sources → LinesByKey → Prop}
    (hturn : ∀ past sources loaded script, motive past sources loaded →
      sources.nextReady? = some script →
        motive (past ++ [script]) (turnSources plugins files script sources)
          (loaded.insert script.key (phaseLines plugins .onLoad script.rawLines)))
    {session : Session} {last : Engine Builtin} (past : List Script) {handed : List Script}
    {loaded result : LinesByKey}
    (h : Drains files job ⟨.ofConfigured plugins, session⟩ loaded handed last result)
    (hstart : motive past session.sources loaded) :
    last.chain = .ofConfigured plugins ∧ motive (past ++ handed) last.session.sources result := by
  generalize hengine : (⟨.ofConfigured plugins, session⟩ : Engine Builtin) = engine at h
  induction h generalizing past session with
  | done =>
      subst hengine
      rw [List.append_nil]
      exact ⟨rfl, hstart⟩
  | turn hnext hprocess hrest ih =>
      subst hengine
      obtain ⟨after, heq, hafter⟩ := processScript_eq plugins job hfiles _ session
      rw [heq] at hprocess
      cases hprocess
      have hstep := hturn past session.sources _ _ hstart hnext
      rw [← hafter] at hstep
      have hlast := ih _ hstep rfl
      rw [List.append_assoc, List.singleton_append] at hlast
      exact hlast

/-- These scripts have been handed out, and the lines that came out are recorded. -/
structure Progress (plugins : List Builtin) (past : List Script) (sources : Sources)
    (loaded : LinesByKey) : Prop where
  nodup : (past.map Script.key).Nodup
  tracked : ∀ script ∈ past, ⟨script, .done⟩ ∈ sources.entries
  handed : ∀ entry ∈ sources.entries, entry.stage = .done → entry.script ∈ past
  loaded_eq : ∀ script ∈ past,
    loaded[script.key]? = some (phaseLines plugins .onLoad script.rawLines)

namespace Progress

variable {past : List Script} {sources : Sources} {loaded : LinesByKey}

/-- The next script has not been handed out before. -/
theorem key_ne (h : Progress plugins past sources loaded) {script other : Script}
    (hnext : sources.nextReady? = some script) (hother : other ∈ past) :
    script.key ≠ other.key := by
  intro hkey
  have heq := Sources.entry_unique (Sources.nextReady?_eq_some hnext) (h.tracked other hother) hkey
  cases heq

/-- Each turn hands out one more script. -/
theorem turn (h : Progress plugins past sources loaded) (files : FileView) {script : Script}
    (hnext : sources.nextReady? = some script) :
    Progress plugins (past ++ [script]) (turnSources plugins files script sources)
      (loaded.insert script.key (phaseLines plugins .onLoad script.rawLines)) := by
  have hqueued := Sources.nextReady?_eq_some hnext
  have hgrows := phaseSources_keeps plugins files .onLoad script script.rawLines sources
  constructor
  · rw [List.map_append, List.nodup_append]
    refine ⟨h.nodup, by simp, ?_⟩
    intro key hkey other hother
    obtain ⟨earlier, hearlier, rfl⟩ := List.mem_map.mp hkey
    obtain rfl : other = script.key := by simpa using hother
    exact (h.key_ne hnext hearlier).symm
  · intro other hother
    rcases List.mem_append.mp hother with hother | hother
    · refine Sources.mem_setStage.mpr ⟨_, hgrows.mem_of_mem (h.tracked other hother), ?_⟩
      exact if_neg (h.key_ne hnext hother).symm
    · obtain rfl : other = script := by simpa using hother
      exact Sources.mem_setStage.mpr ⟨_, hgrows.mem_of_mem hqueued, if_pos rfl⟩
  · intro entry hentry hdone
    obtain ⟨old, hold, rfl⟩ := Sources.mem_setStage.mp hentry
    -- what is done is the script of this turn or was done before it, for what is new waits
    split
    · next hkey =>
      rw [Sources.entry_unique hold (hgrows.mem_of_mem hqueued) hkey]
      simp
    · next hkey =>
      rw [if_neg hkey] at hdone
      rcases hgrows.mem_cases hold with hbefore | ⟨hnew, -, -⟩
      · exact List.mem_append_left _ (h.handed old hbefore hdone)
      · rw [hnew] at hdone
        cases hdone
  · intro other hother
    rw [Std.TreeMap.getElem?_insert]
    simp only [Std.compare_eq_iff_eq]
    rcases List.mem_append.mp hother with hother | hother
    · rw [if_neg (h.key_ne hnext hother)]
      exact h.loaded_eq other hother
    · obtain rfl : other = script := by simpa using hother
      rw [if_pos rfl]

/-- Once no script waits, exactly the tracked scripts have been handed out. -/
theorem perm_scripts (h : Progress plugins past sources loaded)
    (hnone : sources.nextReady? = none) : past.Perm sources.scripts := by
  have hscripts : sources.scripts.Nodup := by
    have hkeys := sources.keys_nodup
    rw [sources.keys_eq_map_scripts] at hkeys
    exact hkeys.of_map
  refine (List.perm_ext_iff_of_nodup h.nodup.of_map hscripts).mpr fun script => ?_
  constructor
  · intro hscript
    exact List.mem_map.mpr ⟨_, h.tracked script hscript, rfl⟩
  · intro hscript
    obtain ⟨entry, hentry, rfl⟩ := List.mem_map.mp hscript
    exact h.handed entry hentry (Sources.nextReady?_eq_none_iff.mp hnone entry hentry)

end Progress

/-! ## The second phase -/

/-- The lines behind the second phase over scripts, one after another. -/
def finishLines (plugins : List Builtin) (loaded : LinesByKey) (scripts : List Script)
    (finished : LinesByKey) : LinesByKey :=
  scripts.foldl (fun finished script =>
    finished.insert script.key (phaseLines plugins .onFinishUp (loaded.getD script.key [])))
      finished

/-- The second phase records lines for the scripts it goes over, and for no others. -/
theorem getElem?_finishLines (loaded : LinesByKey) (scripts : List Script) (finished : LinesByKey)
    (key : String) :
    (finishLines plugins loaded scripts finished)[key]? =
      if key ∈ scripts.map Script.key then
        some (phaseLines plugins .onFinishUp (loaded.getD key []))
      else finished[key]? := by
  induction scripts generalizing finished with
  | nil => simp [finishLines]
  | cons script rest ih =>
      rw [finishLines, List.foldl_cons, ← finishLines, ih, List.map_cons,
        Std.TreeMap.getElem?_insert]
      simp only [Std.compare_eq_iff_eq, List.mem_cons]
      by_cases hrest : key ∈ rest.map Script.key
      · rw [if_pos hrest, if_pos (.inr hrest)]
      · by_cases hkey : script.key = key
        · rw [if_neg hrest, if_pos hkey, if_pos (.inl hkey.symm), hkey]
        · rw [if_neg hrest, if_neg hkey, if_neg]
          rintro (heq | hmem)
          · exact hkey heq.symm
          · exact hrest hmem

/-- The sources behind the second phase over scripts, one after another. -/
def finishSources (plugins : List Builtin) (files : FileView) (loaded : LinesByKey)
    (scripts : List Script) (sources : Sources) : Sources :=
  scripts.foldl (fun sources script =>
    phaseSources plugins files .onFinishUp script (loaded.getD script.key []) sources) sources

/-- The second phase does not fail, and as the keys of the scripts are distinct, no script takes out
the lines of another. -/
theorem finish_eq (plugins : List Builtin) (job : Job) (hfiles : files.Readable)
    (loaded : LinesByKey) {scripts : List Script} (hnodup : (scripts.map Script.key).Nodup)
    (finished : LinesByKey) (session : Session) :
    ∃ after, finish files job loaded scripts finished ⟨.ofConfigured plugins, session⟩ =
        .ok (finishLines plugins loaded scripts finished) ⟨.ofConfigured plugins, after⟩ ∧
      after.sources = finishSources plugins files loaded scripts session.sources := by
  induction scripts generalizing loaded finished session with
  | nil => exact ⟨session, rfl, rfl⟩
  | cons script rest ih =>
      rw [List.map_cons, List.nodup_cons] at hnodup
      have hothers : ∀ other ∈ rest, (loaded.erase script.key).getD other.key [] =
          loaded.getD other.key [] := fun other hother =>
        getD_erase_of_ne loaded fun heq => hnodup.1 (heq ▸ List.mem_map_of_mem hother)
      obtain ⟨middle, hphase, hmiddle⟩ :=
        runPhase_eq plugins ⟨script, files, job.definitions⟩ hfiles .onFinishUp
          (loaded.getD script.key []) session
      obtain ⟨after, hrest, hafter⟩ := ih (loaded.erase script.key) hnodup.2
        (finished.insert script.key
          (phaseLines plugins .onFinishUp (loaded.getD script.key []))) middle
      have hlines : finishLines plugins (loaded.erase script.key) rest (finished.insert script.key
          (phaseLines plugins .onFinishUp (loaded.getD script.key []))) =
            finishLines plugins loaded (script :: rest) finished :=
        List.foldl_ext _ _ _ fun recorded other hother => by rw [hothers other hother]
      have hsources : finishSources plugins files (loaded.erase script.key) rest middle.sources =
          finishSources plugins files loaded rest middle.sources :=
        List.foldl_ext _ _ _ fun sources other hother => by rw [hothers other hother]
      rw [hlines] at hrest
      refine ⟨after, (bind_of_ok hphase).trans hrest, ?_⟩
      rw [hafter, hsources, hmiddle]
      rfl

theorem finishSources_grows (loaded : LinesByKey) (scripts : List Script) (sources : Sources) :
    sources.Grows (fun _ => True) (finishSources plugins files loaded scripts sources) := by
  induction scripts generalizing sources with
  | nil => exact .refl sources
  | cons script rest ih =>
      exact (phaseSources_keeps plugins files _ _ _ _).trans (ih _)

end Builtin

/-! ## The whole run -/

/-- The scheme that resolves the references of a run which starts in a directory. -/
def Job.schemeFrom (job : Job) (cwd : Path) : Scheme :=
  job.scheme?.getD (.pathKey cwd)

/-- The sources that the inputs are put into. -/
def Job.opened (job : Job) (cwd : Path) : Sources where
  entries := []
  scheme := job.schemeFrom cwd
  locked := false
  distinct := List.nodup_nil

theorem Job.sources_start (job : Job) (cwd : Path) :
    ((Session.start cwd).setScheme job.scheme?).sources = (job.opened cwd).setLock true := by
  unfold Job.opened Job.schemeFrom
  cases job.scheme? <;> rfl

/-- The configuration leaves the sources as they were at the start. -/
theorem Builtin.sources_configure {job : Job} {cwd : Path} {plugins : List Builtin}
    {chain : Chain Builtin} {session : Session}
    (h : Chain.configure job.settings job.definitions plugins
      ((Session.start cwd).setScheme job.scheme?) = .ok chain session) :
    session.sources = (job.opened cwd).setLock true := by
  obtain ⟨others, -, -, hsources⟩ := configure_eq_ok h
  rw [hsources, job.sources_start]

/-- Scripts that are put in without the lock let the sources grow by these scripts. -/
theorem Sources.foldl_enqueue_grows {eligible : Script → Prop} {scripts : List Script}
    {sources : Sources} (hlock : sources.locked = false)
    (h : ∀ script ∈ scripts, eligible script) :
    sources.Grows eligible (scripts.foldl Sources.enqueue sources) := by
  induction scripts generalizing sources with
  | nil => exact .refl sources
  | cons script rest ih =>
      refine (Grows.enqueue hlock (h script (by simp))).trans (ih ?_ fun other hother => ?_)
      · rw [locked_enqueue]
        exact hlock
      · exact h other (by simp [hother])

/-! ## Behind the inputs -/

section

variable {files : FileView} {job : Job} {cwd : Path} {session seeded : Session}

/-- The inputs let the sources grow by their scripts. -/
theorem Run.seed_grows (h : seed files job job.inputs session = .ok () seeded)
    (hopened : session.sources = job.opened cwd) :
    (job.opened cwd).Grows (fun script => ∃ input ∈ job.inputs,
      script.LoadedFrom files job.separator
        ((job.schemeFrom cwd).resolve [input] job.baseDirectory)) seeded.sources := by
  obtain ⟨scripts, hscripts, hseeded⟩ := seed_eq_ok h
  rw [hopened] at hscripts hseeded
  rw [hseeded]
  exact Sources.foldl_enqueue_grows rfl fun script hscript => exists_of_mem_right hscripts hscript

/-- Behind the inputs there are only scripts of inputs, and they all wait. -/
theorem Run.mem_seeded (h : seed files job job.inputs session = .ok () seeded)
    (hopened : session.sources = job.opened cwd) {entry : Tracked}
    (hentry : entry ∈ seeded.sources.entries) :
    entry.stage = .queued ∧ ∃ input ∈ job.inputs, entry.script.LoadedFrom files job.separator
      ((job.schemeFrom cwd).resolve [input] job.baseDirectory) := by
  rcases (seed_grows h hopened).mem_cases hentry with hold | ⟨hstage, hinput, -⟩
  · cases hold
  · exact ⟨hstage, hinput⟩

/-- Behind the inputs nothing has been handed out. -/
theorem Builtin.progress_seeded {plugins : List Builtin}
    (h : seed files job job.inputs session = .ok () seeded)
    (hopened : session.sources = job.opened cwd) : Progress plugins [] seeded.sources {} := by
  refine ⟨List.nodup_nil, by simp, fun entry hentry hdone => ?_, by simp⟩
  rw [(mem_seeded h hopened hentry).1] at hdone
  cases hdone

end

namespace Run.Course

open Builtin

variable {files : FileView} {job : Job} {plugins configured : List Builtin} {cwd : Path}
  {output : Output} {final : Session}

/-- The plugins of a run that puts something out can be set up. -/
theorem exists_setUp (course : Course files job plugins (Session.start cwd) output final) :
    ∃ configured, plugins.mapM (setUp job.settings) = .ok configured := by
  obtain ⟨configured, hconfigured, -, -⟩ := configure_eq_ok course.configure_eq
  exact ⟨configured, hconfigured⟩

variable (course : Course files job plugins (Session.start cwd) output final)
  (hconfigured : plugins.mapM (setUp job.settings) = .ok configured)

include hconfigured in
theorem chain_eq : course.chain = .ofConfigured configured := by
  obtain ⟨others, hothers, hchain, -⟩ := configure_eq_ok course.configure_eq
  obtain rfl : others = configured := by simpa [hconfigured] using hothers.symm
  exact hchain

theorem opened_eq : (course.configured.setLock false).sources = job.opened cwd := by
  rw [Session.sources_setLock, sources_configure course.configure_eq]
  rfl

include hconfigured in
/-- What holds behind the inputs and is kept by every turn holds behind the first phase. -/
theorem ingested_induction (hfiles : files.Readable)
    {motive : List Script → Sources → LinesByKey → Prop}
    (hseeded : motive [] course.seeded.sources {})
    (hturn : ∀ past sources loaded script, motive past sources loaded →
      sources.nextReady? = some script →
        motive (past ++ [script]) (turnSources configured files script sources)
          (loaded.insert script.key (phaseLines configured .onLoad script.rawLines))) :
    motive course.handed course.ingested.session.sources course.loaded := by
  have hdrains := course.drains
  rw [course.chain_eq hconfigured] at hdrains
  exact (drains_induction hfiles hturn [] hdrains hseeded).2

include hconfigured in
/-- Behind the first phase, exactly the tracked scripts have been handed out. -/
theorem progress (hfiles : files.Readable) :
    Progress configured course.handed course.ingested.session.sources course.loaded :=
  course.ingested_induction hconfigured hfiles (progress_seeded course.seed_eq course.opened_eq)
    fun _ _ _ _ hprogress hnext => hprogress.turn files hnext

include hconfigured in
theorem ingested_chain_eq (hfiles : files.Readable) :
    course.ingested.chain = .ofConfigured configured := by
  have hdrains := course.drains
  rw [course.chain_eq hconfigured] at hdrains
  exact (drains_induction (motive := fun _ _ _ => True) hfiles (fun _ _ _ _ _ _ => trivial) []
    hdrains trivial).1

include hconfigured in
/-- The second phase goes once over the scripts that the first one left, under the lock. -/
theorem finished_eq (hfiles : files.Readable) :
    course.finished =
        finishLines configured course.loaded course.ingested.session.sources.scripts {} ∧
      final.sources = finishSources configured files course.loaded
        course.ingested.session.sources.scripts (course.ingested.session.sources.setLock true) := by
  obtain ⟨after, hfinish, hafter⟩ := Builtin.finish_eq configured job hfiles course.loaded
    course.ingested.session.sources.nodup_map_scripts {}
    (course.ingested.session.setLock course.configured.sources.locked)
  have heq := course.finish_eq
  rw [course.ingested_chain_eq hconfigured hfiles, hfinish] at heq
  injection heq with hfinished hlast
  have hfinal : final.sources = after.sources := by
    have hsession := course.final_eq
    rw [← hlast] at hsession
    exact congrArg Session.sources hsession
  refine ⟨hfinished.symm, ?_⟩
  rw [hfinal, hafter, Session.sources_setLock, sources_configure course.configure_eq,
    Sources.locked_setLock]

include hconfigured in
/-- The second phase puts the scripts at most into another order. -/
theorem perm_final (hfiles : files.Readable) :
    final.sources.entries.Perm course.ingested.session.sources.entries := by
  obtain ⟨-, hfinal⟩ := course.finished_eq hconfigured hfiles
  rw [hfinal]
  exact (finishSources_grows _ _ _).perm_of_locked rfl

include hconfigured in
/-- The scripts that the first phase is handed are those that are put out. -/
theorem handed_perm (hfiles : files.Readable) : course.handed.Perm final.sources.scripts := by
  have hscripts := (course.progress hconfigured hfiles).perm_scripts
    course.drains.nextReady?_eq_none
  exact hscripts.trans ((course.perm_final hconfigured hfiles).map _).symm

include hconfigured in
/-- The scripts hold the lines of the files under their paths. -/
theorem readLines_eq (hfiles : files.Readable) :
    ∀ script ∈ course.handed, files.readLines script.path = .ok script.rawLines := by
  have hentries : ∀ entry ∈ course.ingested.session.sources.entries,
      files.readLines entry.script.path = .ok entry.script.rawLines := by
    refine course.ingested_induction hconfigured hfiles (motive := fun _ sources _ =>
      ∀ entry ∈ sources.entries,
        files.readLines entry.script.path = .ok entry.script.rawLines) ?_ ?_
    · intro entry hentry
      obtain ⟨-, input, -, hloaded⟩ := mem_seeded course.seed_eq course.opened_eq hentry
      exact hloaded.lines
    · intro past sources loaded script hread _
      refine forall_turnSources (fun script => files.readLines script.path = .ok script.rawLines) ?_
        hread
      exact phaseSources_grows fun _ _ _ _ _ _ _ hloaded => hloaded.lines
  intro script hscript
  have hscripts := (course.progress hconfigured hfiles).perm_scripts
    course.drains.nextReady?_eq_none
  obtain ⟨entry, hentry, rfl⟩ := List.mem_map.mp (hscripts.mem_iff.mp hscript)
  exact hentries entry hentry

end Run.Course

end SourceWeave
