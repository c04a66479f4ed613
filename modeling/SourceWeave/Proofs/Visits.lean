import SourceWeave.Proofs.Conduct
import SourceWeave.Proofs.Course

/-!
# The sessions that a run goes through

`Run.Visits` lists the sessions that a run goes through, each with the `Moment` at which it does: at
the edges between two pieces of work, and, while a plugin is at work, those between its calls. It
covers runs that fail and runs that meet their limit. A property of the sources that the plugins
keep, `Plugin.Keeps`, is kept by every loop of a run. If it also survives what the run itself does,
it is a `Run.Invariant`, and each session that the run visits behind its start lies between two of
which it holds: `Run.Invariant.liesBetween`.
-/

namespace SourceWeave

open Call

/-! ## Moments -/

/-- What goes on in a run. -/
inductive Moment where
  /-- The plugins are to be configured. -/
  | preparing
  /-- A plugin is configured. -/
  | configuring
  /-- Scripts are taken in. -/
  | ingesting
  /-- A plugin works in the first phase. -/
  | loading
  /-- No script is taken in any more. -/
  | closed
  /-- A plugin works in the second phase. -/
  | finishing
deriving DecidableEq, Repr

/-- Scripts can be made while they are taken in, and at no other time. -/
def Moment.locked : Moment → Bool
  | ingesting | loading => false
  | preparing | configuring | closed | finishing => true

section

variable {π : Type} [Plugin π]

/-- The sessions that the steps of a phase go through. -/
inductive Chain.PhaseVisits (phase : Phase) (context : Context) (lines : List String)
    (engine : Engine π) : Session → Prop where
  | step {front rest : List ChainStep} {step : ChainStep} {reached : List String}
      {before : Engine π} {calls : List Call} {session : Session}
      (hsteps : engine.chain.steps.filter (·.phase == phase) = front ++ step :: rest)
      (hfront : runSteps context front lines engine = .ok reached before)
      (hcalls : Explains calls before.session
        (stateOf (runStep step context reached before)).session)
      (hsession : session ∈ sessions calls before.session) :
      PhaseVisits phase context lines engine session

/-- What the plugins of a job are configured to, from the session with which the run starts. -/
def Job.configureFrom (job : Job) (plugins : List π) (start : Session) :
    EStateM.Result Error Session (Chain π) :=
  Chain.configure job.settings job.definitions plugins (start.setScheme job.scheme?)

namespace Run

/-- The sessions that a run goes through. -/
inductive Visits (files : FileView) (job : Job) (plugins : List π) (limit : Nat) (start : Session) :
    Moment → Session → Prop where
  /-- The run starts. -/
  | start : Visits files job plugins limit start .preparing start
  /-- Some of the plugins are configured. -/
  | prepared {front rest configured : List π} {session : Session}
      (hplugins : plugins = front ++ rest)
      (hfront : Chain.configurePlugins job.settings job.definitions front
        (start.setScheme job.scheme?) = .ok configured session) :
      Visits files job plugins limit start .preparing session
  /-- The next one is being configured. -/
  | configuring {front rest configured : List π} {plugin : π} {before session : Session}
      {calls : List Call} (hplugins : plugins = front ++ plugin :: rest)
      (hfront : Chain.configurePlugins job.settings job.definitions front
        (start.setScheme job.scheme?) = .ok configured before)
      (hcalls : Explains calls before
        (stateOf (Plugin.configure job.settings job.definitions plugin before)))
      (hsession : session ∈ sessions calls before) :
      Visits files job plugins limit start .configuring session
  /-- Some of the inputs are taken in. -/
  | seeded {chain : Chain π} {ready session : Session} {front rest : List String}
      (hconfigure : job.configureFrom plugins start = .ok chain ready)
      (hinputs : job.inputs = front ++ rest)
      (hseed : seed files job front (ready.setLock false) = .ok () session) :
      Visits files job plugins limit start .ingesting session
  /-- Some scripts have had their turn. -/
  | turned {chain : Chain π} {ready seeded : Session} {turns : Nat} {engine : Engine π}
      (hconfigure : job.configureFrom plugins start = .ok chain ready)
      (hseed : seed files job job.inputs (ready.setLock false) = .ok () seeded)
      (hturns : turns ≤ limit)
      (hdrain : drain files job turns {} ⟨chain, seeded⟩ = .ok none engine) :
      Visits files job plugins limit start .ingesting engine.session
  /-- The next one goes through the first phase. -/
  | loading {chain : Chain π} {ready seeded session : Session} {turns : Nat} {engine : Engine π}
      {script : Script} (hconfigure : job.configureFrom plugins start = .ok chain ready)
      (hseed : seed files job job.inputs (ready.setLock false) = .ok () seeded)
      (hturns : turns < limit) (hdrain : drain files job turns {} ⟨chain, seeded⟩ = .ok none engine)
      (hnext : engine.session.sources.nextReady? = some script)
      (hvisits : Chain.PhaseVisits .onLoad ⟨script, files, job.definitions⟩ script.rawLines
        ⟨engine.chain, engine.session.note .debug "processing script" [("key", .bare script.key)]⟩
        session) :
      Visits files job plugins limit start .loading session
  /-- No script is taken in any more, for whatever reason. -/
  | closed {chain : Chain π} {ready : Session}
      (hconfigure : job.configureFrom plugins start = .ok chain ready) :
      Visits files job plugins limit start .closed
        ((stateOf (ingest files job limit chain (ready.setLock false))).setLock
          ready.sources.locked)
  /-- Some scripts have gone through the second phase. -/
  | finished {chain loadedChain : Chain π} {ready ingested : Session} {loaded result : LinesByKey}
      {front rest : List Script} {engine : Engine π}
      (hconfigure : job.configureFrom plugins start = .ok chain ready)
      (hingest : ingest files job limit chain (ready.setLock false) =
        .ok (some (loadedChain, loaded)) ingested)
      (hscripts : ingested.sources.scripts = front ++ rest)
      (hfinish : finish files job loaded front {}
        ⟨loadedChain, ingested.setLock ready.sources.locked⟩ = .ok result engine) :
      Visits files job plugins limit start .closed engine.session
  /-- The next one goes through the second phase, with its lines, which none in front has taken out as
  no other has its key. -/
  | finishing {chain loadedChain : Chain π} {ready ingested session : Session}
      {loaded result : LinesByKey} {front rest : List Script} {script : Script} {engine : Engine π}
      (hconfigure : job.configureFrom plugins start = .ok chain ready)
      (hingest : ingest files job limit chain (ready.setLock false) =
        .ok (some (loadedChain, loaded)) ingested)
      (hscripts : ingested.sources.scripts = front ++ script :: rest)
      (hfinish : finish files job loaded front {}
        ⟨loadedChain, ingested.setLock ready.sources.locked⟩ = .ok result engine)
      (hvisits : Chain.PhaseVisits .onFinishUp ⟨script, files, job.definitions⟩
        (loaded.getD script.key []) engine session) :
      Visits files job plugins limit start .finishing session
  /-- The run ends, with an output or without. -/
  | final : Visits files job plugins limit start .closed
      (stateOf (job.run files plugins limit start))

/-- A run visits the session that it leaves. -/
theorem Visits.of_run {files : FileView} {job : Job} {plugins : List π} {limit : Nat}
    {start final : Session} {result : Option Output}
    (hrun : job.run files plugins limit start = .ok result final) :
    Visits files job plugins limit start .closed final := by
  have hfinal : Visits files job plugins limit start .closed
      (stateOf (job.run files plugins limit start)) := .final
  rw [hrun] at hfinal
  exact hfinal

end Run

/-! ## Properties that plugins keep -/

/-- A property of the sources that a piece of work and what follows keep. -/
theorem Session.holds_bind {α β : Type} {holds : Sources → Prop} {work : EStateM Error Session α}
    {next : α → EStateM Error Session β} {session : Session}
    (hwork : holds (stateOf (work session)).sources)
    (hnext : ∀ a after, holds after.sources → holds (stateOf (next a after)).sources) :
    holds (stateOf ((work >>= next) session)).sources :=
  stateOf_bind (P := fun after : Session => holds after.sources) hwork hnext

theorem Engine.holds_bind {π α β : Type} {holds : Sources → Prop}
    {work : EStateM Error (Engine π) α} {next : α → EStateM Error (Engine π) β} {engine : Engine π}
    (hwork : holds (stateOf (work engine)).session.sources)
    (hnext : ∀ a after, holds after.session.sources →
      holds (stateOf (next a after)).session.sources) :
    holds (stateOf ((work >>= next) engine)).session.sources :=
  stateOf_bind (P := fun after : Engine π => holds after.session.sources) hwork hnext

/-- Whatever the plugins of a type do, the property goes on to hold of the sources. -/
structure Plugin.Keeps (π : Type) [Plugin π] (files : FileView) (holds : Sources → Prop) :
    Prop where
  configure : ∀ (settings : Settings) (definitions : Definitions) (plugin : π) (session : Session),
    holds session.sources →
      holds (stateOf (Plugin.configure settings definitions plugin session)).sources
  transformScript : ∀ (context : Context) (lines : List String) (plugin : π) (session : Session),
    context.files = files → holds session.sources →
      holds (stateOf (Plugin.transformScript context lines (plugin, session))).2.sources
  setStage : ∀ (sources : Sources) (key : String) (stage : Stage),
    holds sources → holds (sources.setStage key stage)

namespace Plugin.Keeps

variable {files : FileView} {holds : Sources → Prop}

theorem configurePlugins (h : Plugin.Keeps π files holds) (settings : Settings)
    (definitions : Definitions) (plugins : List π) {session : Session}
    (hsession : holds session.sources) :
    holds (stateOf (Chain.configurePlugins settings definitions plugins session)).sources := by
  induction plugins generalizing session with
  | nil => exact hsession
  | cons plugin rest ih =>
      refine Session.holds_bind (h.configure settings definitions plugin session hsession)
        fun configured after hafter => ?_
      -- the note between two plugins is no change of the sources
      refine Session.holds_bind hafter fun _ noted hnoted => ?_
      exact Session.holds_bind (ih hnoted) fun others last hlast => hlast

theorem chainConfigure (h : Plugin.Keeps π files holds) (settings : Settings)
    (definitions : Definitions) (plugins : List π) {session : Session}
    (hsession : holds session.sources) :
    holds (stateOf (Chain.configure settings definitions plugins session)).sources :=
  Session.holds_bind (h.configurePlugins settings definitions plugins hsession)
    fun _ _ hafter => hafter

variable {context : Context}

theorem runStep (h : Plugin.Keeps π files holds) (hfiles : context.files = files) (step : ChainStep)
    (lines : List String) {engine : Engine π} (hengine : holds engine.session.sources) :
    holds (stateOf (Chain.runStep step context lines engine)).session.sources := by
  rcases Chain.session_runStep step context lines engine with ⟨notes, heq⟩ | ⟨plugin, heq⟩
  · rw [heq]
    exact hengine
  · rw [heq]
    exact h.transformScript context lines plugin engine.session hfiles hengine

theorem runSteps (h : Plugin.Keeps π files holds) (hfiles : context.files = files)
    (steps : List ChainStep) (lines : List String) {engine : Engine π}
    (hengine : holds engine.session.sources) :
    holds (stateOf (Chain.runSteps context steps lines engine)).session.sources := by
  induction steps generalizing lines engine with
  | nil => exact hengine
  | cons step rest ih =>
      exact Engine.holds_bind (h.runStep hfiles step lines hengine)
        fun lines' after hafter => ih lines' hafter

theorem runPhase (h : Plugin.Keeps π files holds) (hfiles : context.files = files) (phase : Phase)
    (lines : List String) {engine : Engine π} (hengine : holds engine.session.sources) :
    holds (stateOf (Chain.runPhase phase context lines engine)).session.sources := by
  show holds (stateOf ((Chain.runSteps context (engine.chain.steps.filter (·.phase == phase)) lines
    >>= fun lines => pure (dropTokens engine.chain.cleanupTokens lines)) engine)).session.sources
  exact Engine.holds_bind (h.runSteps hfiles _ lines hengine) fun _ _ hafter => hafter

theorem processScript (h : Plugin.Keeps π files holds) (job : Job) (script : Script)
    {engine : Engine π} (hengine : holds engine.session.sources) :
    holds (stateOf (Run.processScript files job script engine)).session.sources := by
  refine Engine.holds_bind hengine fun _ noted hnoted => ?_
  refine Engine.holds_bind (h.runPhase rfl .onLoad script.rawLines hnoted)
    fun lines after hafter => ?_
  refine Engine.holds_bind ?_ fun _ _ hlast => hlast
  show holds (after.session.setStage script.key .done).sources
  rw [Session.sources_setStage]
  exact h.setStage _ _ _ hafter

theorem drain (h : Plugin.Keeps π files holds) (job : Job) (limit : Nat) (loaded : LinesByKey)
    {engine : Engine π} (hengine : holds engine.session.sources) :
    holds (stateOf (Run.drain files job limit loaded engine)).session.sources := by
  induction limit generalizing loaded engine with
  | zero => exact hengine
  | succ limit ih =>
      rw [Run.drain_succ]
      split
      · exact hengine
      · next script _ =>
        have hprocess := h.processScript job script hengine
        split
        · next lines after heq =>
          rw [heq] at hprocess
          exact ih _ hprocess
        · next e after heq =>
          rw [heq] at hprocess
          exact hprocess

theorem finish (h : Plugin.Keeps π files holds) (job : Job) (loaded : LinesByKey)
    (scripts : List Script) (finished : LinesByKey) {engine : Engine π}
    (hengine : holds engine.session.sources) :
    holds (stateOf (Run.finish files job loaded scripts finished engine)).session.sources := by
  induction scripts generalizing loaded finished engine with
  | nil => exact hengine
  | cons script rest ih =>
      exact Engine.holds_bind (h.runPhase rfl .onFinishUp _ hengine)
        fun lines after hafter => ih _ _ hafter

/-- Plugins that have been configured leave a property that they keep. -/
theorem of_configurePlugins (h : Plugin.Keeps π files holds)
    {settings : Settings} {definitions : Definitions} {front configured : List π}
    {session after : Session} (hsession : holds session.sources)
    (hfront : Chain.configurePlugins settings definitions front session = .ok configured after) :
    holds after.sources := by
  have hafter := h.configurePlugins settings definitions front hsession
  rw [hfront] at hafter
  exact hafter

/-- Scripts that have gone through the second phase leave a property that the plugins keep. -/
theorem of_finish (h : Plugin.Keeps π files holds) {job : Job} {chain : Chain π}
    {session : Session} {loaded result : LinesByKey} {scripts : List Script} {engine : Engine π}
    (hsession : holds session.sources)
    (hfinish : Run.finish files job loaded scripts {} ⟨chain, session⟩ = .ok result engine) :
    holds engine.session.sources := by
  have hengine : holds
      (stateOf (Run.finish files job loaded scripts {} ⟨chain, session⟩)).session.sources :=
    h.finish job loaded scripts {} hsession
  rw [hfinish] at hengine
  exact hengine

end Plugin.Keeps

/-- Properties that calls leave alone are kept by plugins that keep to calls. -/
theorem Plugin.KeepsToCalls.keeps (h : Plugin.KeepsToCalls π) (files : FileView)
    {holds : Sources → Prop}
    (hcalls : ∀ start finish : Session, Explained start finish → holds start.sources →
      holds finish.sources)
    (hstage : ∀ (sources : Sources) (key : String) (stage : Stage),
      holds sources → holds (sources.setStage key stage)) :
    Plugin.Keeps π files holds where
  configure settings definitions plugin session hsession :=
    hcalls session _ (h.configure settings definitions plugin session) hsession
  transformScript context lines plugin session _ hsession :=
    hcalls session _ (h.transformScript context lines plugin session) hsession
  setStage := hstage

namespace Run

/-! ## Inputs -/

/-- An attempt to load an input leaves the sources alone. -/
theorem sources_loadInput (files : FileView) (job : Job) (input : String) (session : Session) :
    (stateOf (loadInput files job input session)).sources = session.sources := by
  unfold loadInput
  dsimp only
  generalize session.sources.resolve [input] job.baseDirectory = resolution
  split
  · rfl
  · split
    · rfl
    · split
      · rfl
      · next lines _ =>
        obtain ⟨after, heq, hafter⟩ := session.tryCreate?_eq job.separator lines resolution
        rw [heq]
        cases session.sources.tryCreate? job.separator lines resolution <;> exact hafter

/-- A property that survives a loaded script survives all inputs. -/
theorem holds_seed {files : FileView} {job : Job} {holds : Sources → Prop}
    (henqueue : ∀ (sources : Sources) (script : Script) (input : String), holds sources →
      script.LoadedFrom files job.separator (sources.scheme.resolve [input] job.baseDirectory) →
        holds (sources.enqueue script))
    (inputs : List String) (session : Session) (hsession : holds session.sources) :
    holds (stateOf (seed files job inputs session)).sources := by
  induction inputs generalizing session with
  | nil => exact hsession
  | cons input rest ih =>
      have hsources := sources_loadInput files job input session
      cases hload : loadInput files job input session with
      | error e failed =>
          rw [hload] at hsources
          simp only [seed, bind, EStateM.bind, hload]
          show holds failed.sources
          rw [show failed.sources = session.sources from hsources]
          exact hsession
      | ok script after =>
          obtain ⟨hloaded, hafter⟩ := loadInput_eq_ok hload
          rw [seed, bind_of_ok hload]
          refine Session.holds_bind ?_ fun _ next hnext => ih next hnext
          show holds (after.enqueue script).sources
          rw [Session.sources_enqueue, hafter]
          exact henqueue _ _ _ hsession hloaded

/-! ## Invariants of a run -/

/-- The session lies between two of which a property of the sources holds, and calls lead from the
one through it to the other. -/
def LiesBetween (holds : Sources → Prop) (session : Session) : Prop :=
  ∃ calls start finish, Explains calls start finish ∧ session ∈ sessions calls start ∧
    holds start.sources ∧ holds finish.sources

/-- A session of which the property holds. -/
theorem LiesBetween.of_holds {holds : Sources → Prop} {session : Session}
    (h : holds session.sources) : LiesBetween holds session :=
  ⟨[], session, session, ⟨trivial, rfl⟩, List.mem_singleton.mpr rfl, h, h⟩

/-- The sessions of a phase lie between two of which a kept property holds. -/
theorem liesBetween_of_phaseVisits {files : FileView} {holds : Sources → Prop}
    (h : Plugin.Keeps π files holds) {phase : Phase} {context : Context}
    (hfiles : context.files = files) {lines : List String}
    {engine : Engine π} {session : Session} (hengine : holds engine.session.sources)
    (hvisits : Chain.PhaseVisits phase context lines engine session) :
    LiesBetween holds session := by
  cases hvisits with
  | @step front rest step reached before calls _ _ hfront hcalls hsession =>
      have hbefore := h.runSteps hfiles front lines hengine
      rw [hfront] at hbefore
      exact ⟨calls, _, _, hcalls, hsession, hbefore, h.runStep hfiles step reached hbefore⟩

/-- A property of the sources, for each state of the lock, that holds as soon as the scheme of a run
is in use and is kept by its plugins and by what the run itself does. -/
structure Invariant (π : Type) [Plugin π] (files : FileView) (job : Job) (start : Session)
    (holds : Bool → Sources → Prop) : Prop where
  plugins : ∀ locked, Plugin.Keeps π files (holds locked)
  locked : ∀ locked sources, holds locked sources → sources.locked = locked
  prepared : holds true (start.setScheme job.scheme?).sources
  setLock : ∀ locked sources, holds (!locked) sources → holds locked (sources.setLock locked)
  enqueue : ∀ (sources : Sources) (script : Script) (input : String), holds false sources →
    script.LoadedFrom files job.separator (sources.scheme.resolve [input] job.baseDirectory) →
      holds false (sources.enqueue script)

namespace Invariant

variable {files : FileView} {job : Job} {start : Session} {holds : Bool → Sources → Prop}

theorem configured (h : Invariant π files job start holds) {plugins : List π} {chain : Chain π}
    {ready : Session} (hconfigure : job.configureFrom plugins start = .ok chain ready) :
    holds true ready.sources := by
  have hready := (h.plugins true).chainConfigure job.settings job.definitions plugins h.prepared
  rw [show Chain.configure job.settings job.definitions plugins (start.setScheme job.scheme?) =
    .ok chain ready from hconfigure] at hready
  exact hready

/-- What ingestion begins with satisfies the invariant, and so do the inputs that are taken in. -/
theorem seeded (h : Invariant π files job start holds) {ready : Session}
    (hready : holds true ready.sources) (inputs : List String) :
    holds false (stateOf (seed files job inputs (ready.setLock false))).sources :=
  holds_seed h.enqueue inputs (ready.setLock false) (h.setLock false _ hready)

theorem ingest (h : Invariant π files job start holds) (limit : Nat) (chain : Chain π)
    {ready : Session} (hready : holds true ready.sources) :
    holds false (stateOf (ingest files job limit chain (ready.setLock false))).sources := by
  have hseed := h.seeded hready job.inputs
  unfold Run.ingest
  cases hseeded : seed files job job.inputs (ready.setLock false) with
  | error e failed =>
      rw [hseeded] at hseed
      exact hseed
  | ok _ seeded =>
      rw [hseeded] at hseed
      have hdrain : holds false
          (stateOf (drain files job limit {} ⟨chain, seeded⟩)).session.sources :=
        (h.plugins false).drain job limit {} hseed
      dsimp only
      cases hdrained : drain files job limit {} ⟨chain, seeded⟩ with
      | error e engine =>
          rw [hdrained] at hdrain
          exact hdrain
      | ok result engine =>
          rw [hdrained] at hdrain
          cases result <;> exact hdrain

end Invariant

/-! ## The end of a run -/

/-- Behind ingestion that comes to its end, a run ends as its second phase does. -/
theorem stateOf_process_of_ingest {files : FileView} {job : Job} {limit : Nat}
    {chain loadedChain : Chain π} {ready ingested : Session} {loaded : LinesByKey}
    (h : ingest files job limit chain (ready.setLock false) =
      .ok (some (loadedChain, loaded)) ingested) :
    stateOf (process files job limit chain ready) =
      (stateOf (finish files job loaded ingested.sources.scripts {}
        ⟨loadedChain, ingested.setLock ready.sources.locked⟩)).session := by
  have hscripts : (ingested.setLock ready.sources.locked).sources.scripts =
    ingested.sources.scripts := rfl
  simp only [process, Session.whileIngesting, h, split, hscripts]
  cases finish files job loaded ingested.sources.scripts {}
    ⟨loadedChain, ingested.setLock ready.sources.locked⟩ <;> rfl

/-- A run whose ingestion does not come to its end is over behind it. -/
theorem stateOf_process_of_unfinished {files : FileView} {job : Job} {limit : Nat}
    {chain : Chain π} {ready : Session}
    (h : ∀ result ingested,
      ingest files job limit chain (ready.setLock false) ≠ .ok (some result) ingested) :
    stateOf (process files job limit chain ready) =
      (stateOf (ingest files job limit chain (ready.setLock false))).setLock
        ready.sources.locked := by
  simp only [process, Session.whileIngesting]
  cases hingest : ingest files job limit chain (ready.setLock false) with
  | error e failed => rfl
  | ok result ingested =>
      cases result with
      | none => rfl
      | some result => exact absurd hingest (h result ingested)

namespace Invariant

variable {files : FileView} {job : Job} {start : Session} {holds : Bool → Sources → Prop}

/-- The lock is turned back behind ingestion. -/
theorem closed (h : Invariant π files job start holds) {ready ingested : Session}
    (hready : holds true ready.sources) (hingested : holds false ingested.sources) :
    holds true (ingested.setLock ready.sources.locked).sources := by
  rw [h.locked true _ hready]
  exact h.setLock true _ hingested

theorem ingested (h : Invariant π files job start holds) {limit : Nat} {chain loadedChain : Chain π}
    {ready ingested : Session} {loaded : LinesByKey} (hready : holds true ready.sources)
    (hingest : Run.ingest files job limit chain (ready.setLock false) =
      .ok (some (loadedChain, loaded)) ingested) :
    holds true (ingested.setLock ready.sources.locked).sources := by
  have hingested := h.ingest limit chain hready
  rw [hingest] at hingested
  exact h.closed hready hingested

/-- An invariant holds at the end of every run. -/
theorem run (h : Invariant π files job start holds) (plugins : List π) (limit : Nat) :
    holds true (stateOf (job.run files plugins limit start)).sources := by
  cases hconfigure : job.configureFrom plugins start with
  | error e failed =>
      have hfailed :=
        (h.plugins true).chainConfigure job.settings job.definitions plugins h.prepared
      rw [run_of_configure_error hconfigure]
      rw [show Chain.configure job.settings job.definitions plugins (start.setScheme job.scheme?) =
        .error e failed from hconfigure] at hfailed
      exact hfailed
  | ok chain ready =>
      have hready := h.configured hconfigure
      rw [run_of_configure hconfigure]
      by_cases hend : ∃ result ingested,
          Run.ingest files job limit chain (ready.setLock false) = .ok (some result) ingested
      · obtain ⟨⟨loadedChain, loaded⟩, ingested, hingested⟩ := hend
        rw [stateOf_process_of_ingest hingested]
        exact (h.plugins true).finish job loaded _ {} (h.ingested hready hingested)
      · rw [stateOf_process_of_unfinished fun result ingested heq => hend ⟨result, ingested, heq⟩]
        exact h.closed hready (h.ingest limit chain hready)

/-- Scripts that have had their turn leave the invariant. -/
theorem turned (h : Invariant π files job start holds) {chain : Chain π} {ready seeded : Session}
    {turns : Nat} {engine : Engine π} (hready : holds true ready.sources)
    (hseed : seed files job job.inputs (ready.setLock false) = .ok () seeded)
    (hdrain : drain files job turns {} ⟨chain, seeded⟩ = .ok none engine) :
    holds false engine.session.sources := by
  have hseeded := h.seeded hready job.inputs
  rw [hseed] at hseeded
  have hengine : holds false
      (stateOf (drain files job turns {} ⟨chain, seeded⟩)).session.sources :=
    (h.plugins false).drain job turns {} hseeded
  rw [hdrain] at hengine
  exact hengine

/-- Each session that a run visits behind its start lies between two of which an invariant holds. -/
theorem liesBetween (h : Invariant π files job start holds) {plugins : List π} {limit : Nat}
    {moment : Moment} {session : Session}
    (hvisits : Visits files job plugins limit start moment session) :
    moment = .preparing ∧ session = start ∨ LiesBetween (holds moment.locked) session := by
  by_cases hstart : moment = .preparing ∧ session = start
  · exact .inl hstart
  refine .inr ?_
  cases hvisits with
  | start => exact absurd ⟨rfl, rfl⟩ hstart
  | prepared _ hfront =>
      exact .of_holds ((h.plugins true).of_configurePlugins h.prepared hfront)
  | configuring _ hfront hcalls hsession =>
      have hbefore := (h.plugins true).of_configurePlugins h.prepared hfront
      exact ⟨_, _, _, hcalls, hsession, hbefore, (h.plugins true).configure _ _ _ _ hbefore⟩
  | @seeded chain ready session front _ hconfigure _ hseed =>
      have hsession := h.seeded (h.configured hconfigure) front
      rw [hseed] at hsession
      exact .of_holds hsession
  | turned hconfigure hseed _ hdrain =>
      exact .of_holds (h.turned (h.configured hconfigure) hseed hdrain)
  | loading hconfigure hseed _ hdrain _ hvisits =>
      have hengine := h.turned (h.configured hconfigure) hseed hdrain
      refine liesBetween_of_phaseVisits (h.plugins false) rfl ?_ hvisits
      exact hengine
  | closed hconfigure =>
      have hready := h.configured hconfigure
      exact .of_holds (h.closed hready (h.ingest limit _ hready))
  | finished hconfigure hingest _ hfinish =>
      have hclosed := h.ingested (h.configured hconfigure) hingest
      exact .of_holds ((h.plugins true).of_finish hclosed hfinish)
  | finishing hconfigure hingest _ hfinish hvisits =>
      have hclosed := h.ingested (h.configured hconfigure) hingest
      have hengine := (h.plugins true).of_finish hclosed hfinish
      exact liesBetween_of_phaseVisits (h.plugins true) rfl hengine hvisits
  | final => exact .of_holds (h.run plugins limit)

end Invariant

end Run

end

end SourceWeave
