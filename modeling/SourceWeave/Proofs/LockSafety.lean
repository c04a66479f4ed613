import SourceWeave.Proofs.Turns
import SourceWeave.Proofs.Visits

/-!
# When scripts can be made

Scripts can be put in at any time, but they can be made only while creation is not locked, and a
plugin that keeps to calls puts in only what it has made. The main statement is `run_keeps_lock`: in
every run of such plugins creation is locked exactly outside of ingestion, so configuring plugins
adds no script, and from the end of ingestion on the scripts are only put into another order.
-/

namespace SourceWeave

open Call Run

/-- The script of a key. -/
def Sources.scriptOf? (sources : Sources) (key : String) : Option Script :=
  (sources.find? key).map (·.script)

/-- A key has a script exactly if the script is tracked under it. -/
theorem Sources.scriptOf?_eq_some_iff {sources : Sources} {key : String} {script : Script} :
    sources.scriptOf? key = some script ↔ script ∈ sources.scripts ∧ script.key = key := by
  have hkey : ∀ {entry : Tracked}, sources.find? key = some entry →
      entry ∈ sources.entries ∧ entry.key = key := by
    intro entry hfind
    exact ⟨List.mem_of_find?_eq_some hfind, by simpa using List.find?_some hfind⟩
  constructor
  · intro h
    obtain ⟨entry, hfind, rfl⟩ := Option.map_eq_some_iff.mp h
    exact ⟨List.mem_map_of_mem (hkey hfind).1, (hkey hfind).2⟩
  · rintro ⟨hscript, hscriptKey⟩
    obtain ⟨entry, hentry, rfl⟩ := List.mem_map.mp hscript
    cases hfind : sources.find? key with
    | none =>
        exact absurd (mem_keys.mpr ⟨entry, hentry, hscriptKey⟩) (find?_eq_none_iff.mp hfind)
    | some other =>
        obtain ⟨hother, hotherKey⟩ := hkey hfind
        rw [scriptOf?, hfind, entry_unique hother hentry (hotherKey.trans hscriptKey.symm)]
        rfl

/-- Sources with the same scripts have the same script for each key. -/
theorem Sources.scriptOf?_eq_of_perm {sources other : Sources}
    (h : sources.scripts.Perm other.scripts) : sources.scriptOf? = other.scriptOf? := by
  funext key
  refine Option.ext fun script => ?_
  rw [scriptOf?_eq_some_iff, scriptOf?_eq_some_iff, h.mem_iff]

/-- Creation is locked, and these are the scripts, in some order. -/
def Sources.LockedWith (scripts : List Script) (sources : Sources) : Prop :=
  sources.locked = true ∧ sources.scripts.Perm scripts

section

variable {π : Type} [Plugin π]

/-- The state of the lock is an invariant. -/
theorem Plugin.KeepsToCalls.lock_invariant (h : Plugin.KeepsToCalls π) (files : FileView)
    (job : Job) (cwd : Path) :
    Invariant π files job (Session.start cwd) fun locked sources => sources.locked = locked where
  plugins locked := h.keeps files (fun _ _ hcalls hstart => hcalls.locked.trans hstart)
    fun _ _ _ hlocked => hlocked
  locked _ _ hlocked := hlocked
  prepared := by cases job.scheme? <;> rfl
  setLock _ _ _ := rfl
  enqueue sources script _ hlocked _ := (sources.locked_enqueue script).trans hlocked

/-- Under the lock, plugins that keep to calls leave the scripts, up to their order. -/
theorem Plugin.KeepsToCalls.keeps_lockedWith (h : Plugin.KeepsToCalls π) (files : FileView)
    (scripts : List Script) : Plugin.Keeps π files (Sources.LockedWith scripts) := by
  refine h.keeps files ?_ ?_
  · intro start finish hcalls hstart
    exact ⟨hcalls.locked.trans hstart.1, (hcalls.perm_of_locked hstart.1).trans hstart.2⟩
  · intro sources key stage hsources
    exact ⟨hsources.1, by rw [Sources.scripts_setStage]; exact hsources.2⟩

/-- What lies between two locked sessions with the same scripts has these scripts too. -/
theorem Run.perm_of_liesBetween {scripts : List Script} {session : Session}
    (h : LiesBetween (Sources.LockedWith scripts) session) :
    session.sources.scripts.Perm scripts := by
  obtain ⟨calls, start, finish, hexplains, hsession, hstart, -⟩ := h
  exact (perm_of_mem_sessions hexplains.allowed hstart.1 hsession).trans hstart.2

variable {files : FileView} {job : Job} {plugins : List π} {limit : Nat} {cwd : Path}

/-- While plugins are configured there are no scripts. -/
theorem Run.scripts_eq_nil (h : Plugin.KeepsToCalls π) {session : Session}
    (hvisits : Visits files job plugins limit (Session.start cwd) .preparing session ∨
      Visits files job plugins limit (Session.start cwd) .configuring session) :
    session.sources.scripts = [] := by
  have hkeeps := h.keeps_lockedWith files []
  have hstart : Sources.LockedWith [] (Session.start cwd).sources := ⟨rfl, .refl _⟩
  have hprepared : Sources.LockedWith [] ((Session.start cwd).setScheme job.scheme?).sources := by
    cases job.scheme? <;> exact ⟨rfl, .refl _⟩
  refine List.perm_nil.mp (perm_of_liesBetween ?_)
  rcases hvisits with hvisits | hvisits
  · cases hvisits with
    | start => exact .of_holds hstart
    | prepared _ hfront => exact .of_holds (hkeeps.of_configurePlugins hprepared hfront)
  · cases hvisits with
    | configuring _ hfront hcalls hsession =>
        have hbefore := hkeeps.of_configurePlugins hprepared hfront
        exact ⟨_, _, _, hcalls, hsession, hbefore, hkeeps.configure _ _ _ _ hbefore⟩

/-- Behind ingestion the scripts are those at its end, up to their order. -/
theorem Run.perm_ingested (h : Plugin.KeepsToCalls π) {chain loadedChain : Chain π}
    {ready ingested session : Session} {loaded : LinesByKey}
    (hconfigure : job.configureFrom plugins (Session.start cwd) = .ok chain ready)
    (hingest : ingest files job limit chain (ready.setLock false) =
      .ok (some (loadedChain, loaded)) ingested)
    (hvisits : Visits files job plugins limit (Session.start cwd) .closed session ∨
      Visits files job plugins limit (Session.start cwd) .finishing session) :
    session.sources.scripts.Perm ingested.sources.scripts := by
  have hkeeps := h.keeps_lockedWith files ingested.sources.scripts
  have hready : ready.sources.locked = true :=
    (h.lock_invariant files job cwd).configured hconfigure
  have hclosed : Sources.LockedWith ingested.sources.scripts
      (ingested.setLock ready.sources.locked).sources := ⟨hready, .refl _⟩
  refine perm_of_liesBetween ?_
  rcases hvisits with hvisits | hvisits
  · cases hvisits with
    | closed hconfigure' =>
        cases hconfigure.symm.trans hconfigure'
        rw [hingest]
        exact .of_holds hclosed
    | finished hconfigure' hingest' _ hfinish =>
        cases hconfigure.symm.trans hconfigure'
        cases hingest.symm.trans hingest'
        exact .of_holds (hkeeps.of_finish hclosed hfinish)
    | final =>
        rw [run_of_configure hconfigure, stateOf_process_of_ingest hingest]
        exact .of_holds (hkeeps.finish job loaded _ {} hclosed)
  · cases hvisits with
    | finishing hconfigure' hingest' _ hfinish hvisits =>
        cases hconfigure.symm.trans hconfigure'
        cases hingest.symm.trans hingest'
        exact liesBetween_of_phaseVisits hkeeps rfl (hkeeps.of_finish hclosed hfinish) hvisits

/-- The ingestion in the course of a run. -/
theorem Run.Course.ingest_eq {start final : Session} {output : Output}
    (course : Course files job plugins start output final) (hlimit : course.handed.length < limit) :
    ingest files job limit course.chain (course.configured.setLock false) =
      .ok (some (course.ingested.chain, course.loaded)) course.ingested.session := by
  simp only [ingest, course.seed_eq, drain_of_drains course.drains hlimit]

end

/-- In every run of plugins that keep to calls, creation is locked while plugins are configured and
in the second phase, and unlocked in the first. So configuring adds no script, and from the end of
ingestion on the scripts and their keys stay the same. -/
theorem run_keeps_lock {π : Type} [Plugin π] (hcalls : Plugin.KeepsToCalls π) (files : FileView)
    (job : Job) (plugins : List π) (limit : Nat) (cwd : Path) :
    (∀ moment session, Visits files job plugins limit (Session.start cwd) moment session →
      session.sources.locked = moment.locked) ∧
    (∀ session, Visits files job plugins limit (Session.start cwd) .preparing session ∨
        Visits files job plugins limit (Session.start cwd) .configuring session →
      session.sources.scripts = []) ∧
    ∀ (chain loadedChain : Chain π) (ready ingested : Session) (loaded : LinesByKey),
      job.configureFrom plugins (Session.start cwd) = .ok chain ready →
      ingest files job limit chain (ready.setLock false) =
        .ok (some (loadedChain, loaded)) ingested →
      ∀ session, Visits files job plugins limit (Session.start cwd) .closed session ∨
          Visits files job plugins limit (Session.start cwd) .finishing session →
        session.sources.scripts.Perm ingested.sources.scripts ∧
          ∀ key, session.sources.scriptOf? key = ingested.sources.scriptOf? key := by
  refine ⟨?_, fun session => scripts_eq_nil hcalls, ?_⟩
  · intro moment session hvisits
    rcases (hcalls.lock_invariant files job cwd).liesBetween hvisits with
      ⟨rfl, rfl⟩ | ⟨calls, start, finish, -, hsession, hstart, -⟩
    · rfl
    · exact (locked_of_mem_sessions hsession).trans hstart
  · intro chain loadedChain ready ingested loaded hconfigure hingest session hvisits
    have hperm := perm_ingested hcalls hconfigure hingest hvisits
    exact ⟨hperm, congrFun (Sources.scriptOf?_eq_of_perm hperm)⟩

/-- A file that includes another. -/
def includingFiles : MemoryFiles :=
  .ofList [(⟨"/a"⟩, "#include /b\na\n"), (⟨"/b"⟩, "b\n")]

/-- The includer is to work in the second phase. -/
def lateJob : Job :=
  { inputs := ["/a"], settings := Settings.empty.set "inc" "set-stage" "onfinishup" }

set_option maxRecDepth 10000 in
theorem run_keeps_lock_late :
    ∃ final, lateJob.run includingFiles.view [(.inl {} : Builtin)] 9 (Session.start ⟨"/"⟩) =
        .ok (some ⟨[⟨"/a", ⟨"/a"⟩, ["a"]⟩]⟩) final ∧
      ∃ chain ready loadedChain loaded ingested session,
        lateJob.configureFrom [(.inl {} : Builtin)] (Session.start ⟨"/"⟩) = .ok chain ready ∧
        ingest includingFiles.view lateJob 9 chain (ready.setLock false) =
          .ok (some (loadedChain, loaded)) ingested ∧
        Visits includingFiles.view lateJob [(.inl {} : Builtin)] 9 (Session.start ⟨"/"⟩)
          .finishing session ∧
        session.sources.locked = true ∧
        session.sources.scripts.Perm ingested.sources.scripts := by
  have hreadable := includingFiles.view_readable
  obtain ⟨final, hrun⟩ := exists_final
    (show output? (lateJob.run includingFiles.view [(.inl {} : Builtin)] 9 (Session.start ⟨"/"⟩)) =
      some ⟨[⟨"/a", ⟨"/a"⟩, ["a"]⟩]⟩ by decide +kernel)
  obtain ⟨course, hlength⟩ := Course.of_run hrun
  have hsetUp : [(.inl {} : Builtin)].mapM (Builtin.setUp lateJob.settings) =
    .ok [.inl { phase := .onFinishUp }] := rfl
  -- the one script that was taken in is the one that is put out
  obtain ⟨script, hscript⟩ : ∃ script, course.ingested.session.sources.scripts = [script] := by
    have hperm : final.sources.scripts.Perm course.ingested.session.sources.scripts :=
      (course.perm_final hsetUp hreadable).map _
    have hlengths := congrArg List.length course.output_scripts
    rw [List.length_map, hperm.length_eq] at hlengths
    exact List.length_eq_one_iff.mp hlengths.symm
  let closed : Engine Builtin :=
    ⟨course.ingested.chain, course.ingested.session.setLock course.configured.sources.locked⟩
  have hsteps : closed.chain.steps.filter (·.phase == .onFinishUp) =
      [] ++ ⟨.onFinishUp, .fullScript, 0⟩ :: [] := by
    rw [show closed.chain = _ from course.ingested_chain_eq hsetUp hreadable]
    exact Chain.filter_buildSteps _ _
  obtain ⟨calls, hcalls⟩ := Builtin.keepsToCalls.runStep ⟨.onFinishUp, .fullScript, 0⟩
    ⟨script, includingFiles.view, lateJob.definitions⟩ (course.loaded.getD script.key []) closed
  have hphase : Chain.PhaseVisits .onFinishUp ⟨script, includingFiles.view, lateJob.definitions⟩
      (course.loaded.getD script.key []) closed closed.session :=
    .step hsteps rfl hcalls (mem_sessions_self calls _)
  have hingest := course.ingest_eq hlength
  have hfinish : finish includingFiles.view lateJob course.loaded [] {} closed =
    .ok {} closed := rfl
  have hvisits := Visits.finishing course.configure_eq hingest
    (show _ = [] ++ script :: [] from hscript) hfinish hphase
  obtain ⟨hlock, -, hperm⟩ := run_keeps_lock Builtin.keepsToCalls includingFiles.view lateJob
    [.inl {}] 9 ⟨"/"⟩
  exact ⟨final, hrun, course.chain, course.configured, _, _, _, _, course.configure_eq,
    hingest, hvisits, hlock _ _ hvisits,
    (hperm _ _ _ _ _ course.configure_eq hingest _ (.inr hvisits)).1⟩

end SourceWeave
