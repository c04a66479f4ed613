import SourceWeave.Proofs.Processing
import SourceWeave.Proofs.Visits

/-!
# The directives that a run comes to

`Run.Enters` says with which lines, and in which session, a script enters a phase of a run, and
`Run.Meets` in which session an includer comes to a directive in these lines, behind all that the
plugins and the directives in front of it have done. A property that the plugins keep from the entry
on holds there: `Plugin.Keeps.meets`. So an invariant of a run does, `Run.Invariant.meets`; one that
built-in plugins have is that each tracked script was read where the scheme of the run led to:
`Builtin.loaded_invariant`. Every directive is met: `Run.exists_meets` finds the session for each
line of each script of a run that puts something out.
-/

namespace SourceWeave

open Call Run

/-! ## What is known of tracked scripts -/

/-- The state of the lock, the scheme of a run, and a property of all tracked scripts. -/
structure Sources.AllKnown (known : Script → Prop) (scheme : Scheme) (locked : Bool)
    (sources : Sources) : Prop where
  locked_eq : sources.locked = locked
  scheme_eq : sources.scheme = scheme
  known : ∀ script ∈ sources.scripts, known script

/-- Sources that grow by scripts with the property go on to have it. -/
theorem Sources.AllKnown.grows {known eligible : Script → Prop} {scheme : Scheme} {locked : Bool}
    {sources after : Sources} (h : sources.AllKnown known scheme locked)
    (hgrows : sources.Grows eligible after) (heligible : ∀ script, eligible script → known script) :
    after.AllKnown known scheme locked := by
  refine ⟨hgrows.locked.trans h.locked_eq, hgrows.scheme.trans h.scheme_eq, ?_⟩
  intro script hscript
  obtain ⟨entry, hentry, rfl⟩ := List.mem_map.mp hscript
  rcases hgrows.mem_cases hentry with hold | ⟨-, hnew, -⟩
  · exact h.known _ (List.mem_map_of_mem hold)
  · exact heligible _ hnew

theorem Sources.mem_keys_of_mem_scripts {sources : Sources} {script : Script}
    (h : script ∈ sources.scripts) : script.key ∈ sources.keys := by
  rw [keys_eq_map_scripts]
  exact List.mem_map_of_mem h

namespace Builtin

variable {files : FileView} {scheme : Scheme} {known : Script → Prop}

/-- The built-in plugins keep a property of all scripts that the scheme leads to. -/
theorem keeps_allKnown (hfiles : files.Readable)
    (hknown : ∀ separator tokens directory script,
      Script.LoadedFrom files separator (scheme.resolve tokens directory) script → known script)
    (locked : Bool) : Plugin.Keeps Builtin files (Sources.AllKnown known scheme locked) where
  configure settings definitions plugin session hsession := by
    rw [configure_eq]
    cases setUp settings plugin <;> exact hsession
  transformScript context lines plugin session hcontext hsession := by
    cases plugin with
    | inr remover => exact hsession
    | inl includer =>
        obtain ⟨after, hrun, hafter⟩ := includer.transform_eq (hcontext ▸ hfiles) lines session
        show Sources.AllKnown _ _ _ (stateOf (Plugin.onPart Sum.inl includer session
          (Plugin.transformScript context lines))).2.sources
        rw [Plugin.stateOf_onPart]
        simp only [Plugin.transformScript, hrun]
        show Sources.AllKnown _ _ _ after.sources
        rw [hafter]
        refine hsession.grows (Sources.takeAll_grows ?_) fun _ h => h
        intro resolution hresolution script hloaded
        obtain ⟨line, -, htarget⟩ := List.mem_flatMap.mp hresolution
        obtain ⟨tokens, rfl⟩ := Includer.exists_tokens (Includer.mem_candidates htarget)
        rw [hcontext, hsession.scheme_eq] at hloaded
        exact hknown _ _ _ _ hloaded
  setStage sources key stage h :=
    ⟨h.locked_eq, h.scheme_eq, by rw [Sources.scripts_setStage]; exact h.known⟩

/-- A property of all scripts that the scheme leads to is an invariant of a run. -/
theorem allKnown_invariant (hfiles : files.Readable) {job : Job} {cwd : Path}
    (hknown : ∀ separator tokens directory script,
      Script.LoadedFrom files separator ((job.schemeFrom cwd).resolve tokens directory) script →
        known script) :
    Invariant Builtin files job (Session.start cwd)
      (Sources.AllKnown known (job.schemeFrom cwd)) where
  plugins := keeps_allKnown hfiles hknown
  locked _ _ h := h.locked_eq
  prepared := by
    rw [job.sources_start]
    exact ⟨rfl, rfl, by simp [Job.opened, Sources.setLock, Sources.scripts]⟩
  setLock _ _ h := ⟨rfl, h.scheme_eq, h.known⟩
  enqueue sources script input h hloaded := by
    rw [h.scheme_eq] at hloaded
    exact h.grows (.enqueue h.locked_eq (hknown _ _ _ _ hloaded)) fun _ h => h

/-- Each tracked script was read where a reference led to. -/
theorem loaded_invariant (hfiles : files.Readable) (job : Job) (cwd : Path) :
    Invariant Builtin files job (Session.start cwd)
      (Sources.AllKnown (fun script => ∃ separator tokens directory, Script.LoadedFrom files
        separator ((job.schemeFrom cwd).resolve tokens directory) script) (job.schemeFrom cwd)) :=
  allKnown_invariant hfiles fun separator tokens directory _ hloaded =>
    ⟨separator, tokens, directory, hloaded⟩

/-- An includer that is first in a phase has the first step of the phase. -/
theorem exists_first_step {plugins others : List Builtin} {phase : Phase} {includer : Includer}
    (h : active plugins phase = .inl includer :: others) :
    ∃ step rest, (Chain.buildSteps plugins).filter (·.phase == phase) = step :: rest ∧
      step.slot = .fullScript ∧ plugins[step.plugin]? = some (.inl includer) := by
  cases hsteps : (Chain.buildSteps plugins).filter (·.phase == phase) with
  | nil => simp [active, hsteps] at h
  | cons step rest =>
      have hmem : step ∈ Chain.buildSteps plugins :=
        List.mem_of_mem_filter (hsteps ▸ List.mem_cons_self)
      obtain ⟨plugin, hplugin, hown⟩ := mem_buildSteps.mp hmem
      have hfirst : (step :: rest).filterMap (plugins[·.plugin]?) =
          plugin :: rest.filterMap (plugins[·.plugin]?) := List.filterMap_cons_some hplugin
      rw [active, hsteps, hfirst, List.cons.injEq] at h
      obtain ⟨rfl, -⟩ := h
      refine ⟨step, rest, rfl, ?_, hplugin⟩
      rw [List.mem_singleton.mp hown]

/-- The built-in plugins drop no script. -/
theorem keeps_mem_scripts (files : FileView) (script : Script) :
    Plugin.Keeps Builtin files (script ∈ ·.scripts) := by
  refine keepsToCalls.keeps files ?_ ?_
  · rintro start finish ⟨calls, -, rfl⟩ hscript
    exact mem_scripts_performAll (mem_sessions_self calls start) hscript
  · intro sources key stage hscript
    rw [Sources.scripts_setStage]
    exact hscript

end Builtin

/-! ## Scripts in a phase, and directives in scripts -/

/-- Scripts cannot be made in the second phase. -/
def Phase.locked : Phase → Bool
  | onLoad => false
  | onFinishUp => true

namespace Run

/-- A script enters a phase of a run: with which lines, and in which state of the chain and the
session. -/
inductive Enters {π : Type} [Plugin π] (files : FileView) (job : Job) (plugins : List π)
    (limit : Nat) (start : Session) : Phase → Script → List String → Engine π → Prop where
  | loading {chain : Chain π} {ready seeded : Session} {turns : Nat} {engine : Engine π}
      {script : Script} (hconfigure : job.configureFrom plugins start = .ok chain ready)
      (hseed : seed files job job.inputs (ready.setLock false) = .ok () seeded)
      (hturns : turns < limit) (hdrain : drain files job turns {} ⟨chain, seeded⟩ = .ok none engine)
      (hnext : engine.session.sources.nextReady? = some script) :
      Enters files job plugins limit start .onLoad script script.rawLines
        ⟨engine.chain, engine.session.note .debug "processing script" [("key", .bare script.key)]⟩
  | finishing {chain loadedChain : Chain π} {ready ingested : Session}
      {loaded result : LinesByKey} {front rest : List Script} {script : Script} {engine : Engine π}
      (hconfigure : job.configureFrom plugins start = .ok chain ready)
      (hingest : ingest files job limit chain (ready.setLock false) =
        .ok (some (loadedChain, loaded)) ingested)
      (hscripts : ingested.sources.scripts = front ++ script :: rest)
      (hfinish : finish files job loaded front {}
        ⟨loadedChain, ingested.setLock ready.sources.locked⟩ = .ok result engine) :
      Enters files job plugins limit start .onFinishUp script (loaded.getD script.key []) engine

/-- An includer comes to a directive of a script in a phase of a run. It does so in the session that
the steps in front of its own leave, once it has gone over the lines in front of the directive. -/
inductive Meets (files : FileView) (job : Job) (plugins : List Builtin) (limit : Nat)
    (start : Session) (phase : Phase) (script : Script) (includer : Includer) (reference : String) :
    Session → Prop where
  | directive {lines reached done more marked : List String} {line : String}
      {engine before : Engine Builtin} {front rest : List ChainStep} {step : ChainStep}
      {session : Session}
      (henters : Enters files job plugins limit start phase script lines engine)
      (hsteps : engine.chain.steps.filter (·.phase == phase) = front ++ step :: rest)
      (hslot : step.slot = .fullScript)
      (hfront : Chain.runSteps ⟨script, files, job.definitions⟩ front lines engine =
        .ok reached before)
      (hplugin : before.chain.plugins[step.plugin]? = some (.inl includer))
      (hlines : reached = done ++ line :: more)
      (hdirective : includer.directive? line = some reference)
      (hdone : includer.transform ⟨script, files, job.definitions⟩ done before.session =
        .ok marked session) :
      Meets files job plugins limit start phase script includer reference session

end Run

section

variable {files : FileView} {job : Job} {plugins : List Builtin} {limit : Nat} {start : Session}
  {phase : Phase} {script : Script} {lines : List String} {engine : Engine Builtin}
  {includer : Includer} {reference : String} {session : Session}

/-- A property that holds when a script enters a phase, and that the plugins keep, holds at each
directive. -/
theorem Plugin.Keeps.meets {holds : Sources → Prop} (h : Plugin.Keeps Builtin files holds)
    (henters : ∀ lines engine, Enters files job plugins limit start phase script lines engine →
      holds engine.session.sources)
    (hmeets : Meets files job plugins limit start phase script includer reference session) :
    holds session.sources := by
  cases hmeets with
  | @directive lines _ done _ _ _ engine before front _ _ _ hentered _ _ hfront _ _ _ hdone =>
      have hbefore : holds (stateOf (Chain.runSteps ⟨script, files, job.definitions⟩ front lines
          engine)).session.sources := h.runSteps rfl front lines (henters lines engine hentered)
      rw [hfront] at hbefore
      have hafter := h.transformScript ⟨script, files, job.definitions⟩ done (.inl includer)
        before.session rfl hbefore
      have hstate : (stateOf (Plugin.transformScript ⟨script, files, job.definitions⟩ done
          ((.inl includer : Builtin), before.session))).2 = session := by
        refine (Plugin.stateOf_onPart Sum.inl includer before.session _).trans ?_
        simp only [Plugin.transformScript, hdone]
        rfl
      rw [hstate] at hafter
      exact hafter

namespace Run

/-- An invariant holds when a script enters a phase. -/
theorem Invariant.enters {π : Type} [Plugin π] {plugins : List π} {engine : Engine π}
    {holds : Bool → Sources → Prop} (h : Invariant π files job start holds)
    (henters : Enters files job plugins limit start phase script lines engine) :
    holds phase.locked engine.session.sources := by
  cases henters with
  | loading hconfigure hseed _ hdrain _ =>
      have hengine := h.turned (h.configured hconfigure) hseed hdrain
      exact hengine
  | finishing hconfigure hingest _ hfinish =>
      have hclosed := h.ingested (h.configured hconfigure) hingest
      exact (h.plugins true).of_finish hclosed hfinish

/-- An invariant holds at each directive. -/
theorem Invariant.meets {holds : Bool → Sources → Prop}
    (h : Invariant Builtin files job start holds)
    (hmeets : Meets files job plugins limit start phase script includer reference session) :
    holds phase.locked session.sources :=
  (h.plugins phase.locked).meets (fun _ _ henters => h.enters henters) hmeets

/-- A script that enters a phase is tracked. -/
theorem Enters.mem_scripts
    (henters : Enters files job plugins limit start phase script lines engine) :
    script ∈ engine.session.sources.scripts := by
  cases henters with
  | loading _ _ _ _ hnext => exact List.mem_map_of_mem (Sources.nextReady?_eq_some hnext)
  | @finishing _ _ ready ingested _ _ _ _ _ _ _ _ hscripts hfinish =>
      have hmem : script ∈ (ingested.setLock ready.sources.locked).sources.scripts := by
        show script ∈ ingested.sources.scripts
        rw [hscripts]
        simp
      exact (Builtin.keeps_mem_scripts files script).of_finish hmem hfinish

/-- The script of a directive is tracked. -/
theorem Meets.mem_scripts
    (hmeets : Meets files job plugins limit start phase script includer reference session) :
    script ∈ session.sources.scripts :=
  (Builtin.keeps_mem_scripts files script).meets (fun _ _ henters => henters.mem_scripts) hmeets

/-- Each script that the first phase is handed is the next one behind some turns, with the chain as
it was configured. -/
theorem Drains.exists_turn {configured : List Builtin} (hfiles : files.Readable)
    {last : Engine Builtin} {loaded result : LinesByKey} {handed : List Script}
    (h : Drains files job ⟨.ofConfigured configured, session⟩ loaded handed last result)
    (hscript : script ∈ handed) :
    ∃ turns before, turns < handed.length ∧
      drain files job turns loaded ⟨.ofConfigured configured, session⟩ =
        .ok none ⟨.ofConfigured configured, before⟩ ∧
      before.sources.nextReady? = some script := by
  generalize hengine : (⟨.ofConfigured configured, session⟩ : Engine Builtin) = engine at h
  induction h generalizing session with
  | done => cases hscript
  | @turn _ _ _ _ _ first _ handed hnext hprocess _ ih =>
      subst hengine
      rcases List.mem_cons.mp hscript with rfl | hscript
      · exact ⟨0, session, Nat.succ_pos _, rfl, hnext⟩
      · obtain ⟨after, heq, -⟩ := Builtin.processScript_eq configured job hfiles first session
        rw [heq] at hprocess
        cases hprocess
        obtain ⟨turns, before, hturns, hdrain, hready⟩ := ih hscript rfl
        refine ⟨turns + 1, before, Nat.succ_lt_succ hturns, ?_, hready⟩
        rw [drain_succ, hnext]
        simp only [heq]
        exact hdrain

/-- The includer that is first in the first phase comes to every directive in the file of every
script that is put out. -/
theorem exists_meets {configured others : List Builtin} {cwd : Path} {output : Output}
    {final : Session}
    (hrun : job.run files plugins limit (Session.start cwd) = .ok (some output) final)
    (hfiles : files.Readable)
    (hconfigured : plugins.mapM (Builtin.setUp job.settings) = .ok configured)
    (hactive : Builtin.active configured .onLoad = .inl includer :: others)
    {emitted : EmittedScript} (hemitted : emitted ∈ output.scripts) {raw : List String}
    (hraw : files.readLines emitted.path = .ok raw) {line : String} (hline : line ∈ raw)
    (hdirective : includer.directive? line = some reference) :
    ∃ script session, script.key = emitted.key ∧ script.path = emitted.path ∧
      Meets files job plugins limit (Session.start cwd) .onLoad script includer reference
        session := by
  obtain ⟨course, hlength⟩ := Course.of_run hrun
  rw [course.output_scripts] at hemitted
  obtain ⟨script, hscript, rfl⟩ := List.mem_map.mp hemitted
  have hhanded := (course.handed_perm hconfigured hfiles).mem_iff.mpr hscript
  obtain rfl : script.rawLines = raw :=
    Except.ok.inj ((course.readLines_eq hconfigured hfiles script hhanded).symm.trans hraw)
  have hdrains := course.drains
  rw [course.chain_eq hconfigured] at hdrains
  obtain ⟨turns, before, hturns, hdrain, hnext⟩ := hdrains.exists_turn hfiles hhanded
  rw [← course.chain_eq hconfigured] at hdrain
  have henters := Enters.loading course.configure_eq course.seed_eq
    (Nat.lt_trans hturns hlength) hdrain hnext
  rw [course.chain_eq hconfigured] at henters
  obtain ⟨step, rest, hsteps, hslot, hplugin⟩ := Builtin.exists_first_step hactive
  obtain ⟨done, more, hlines⟩ := List.append_of_mem hline
  obtain ⟨session, hdone, -⟩ := @Includer.transform_eq includer ⟨script, files, job.definitions⟩
    hfiles done (before.note .debug "processing script" [("key", .bare script.key)])
  exact ⟨script, session, rfl, rfl, .directive henters (show _ = [] ++ step :: rest from hsteps)
    hslot rfl hplugin hlines hdirective hdone⟩

end Run

end

end SourceWeave
