import SourceWeave.Chain
import SourceWeave.Plugin.Builtin
import SourceWeave.Proofs.Inclusion

/-!
# Chains of built-in plugins

A built-in plugin keeps no state, never fails where every file can be read, and rewrites each line
on its own: `Builtin.rewrite`. What a phase does is therefore a pure function of the lines,
`phaseLines`, and of the sources, `phaseSources`. The main statement is `runPhase_eq`. Which plugins
run in a phase, and in which order, is `Builtin.active`; each plugin of the chain runs in exactly
the phase that its descriptor names, `mem_active`.
-/

namespace SourceWeave

namespace Builtin

/-- The line that a plugin leaves for the clean-up. -/
def removalKeyword : Builtin → String
  | .inl includer => includer.removalKeyword
  | .inr remover => remover.removalKeyword

/-- The line that a plugin leaves in place of a line. -/
def rewrite : Builtin → String → String
  | .inl includer, line => includer.mark line
  | .inr remover, line => if BlankLineRemover.isBlankLine line then remover.removalKeyword else line

/-- A plugin leaves a line alone or puts its removal keyword in its place. -/
theorem rewrite_cases (plugin : Builtin) (line : String) :
    plugin.rewrite line = line ∨ plugin.rewrite line = plugin.removalKeyword := by
  cases plugin with
  | inl includer =>
      simp only [rewrite, removalKeyword, Includer.mark]
      split
      · exact .inr rfl
      · exact .inl rfl
  | inr remover =>
      simp only [rewrite, removalKeyword]
      split
      · exact .inr rfl
      · exact .inl rfl

/-- The sources behind a plugin that goes over the lines of a script. -/
def advance (files : FileView) (script : Script) : Builtin → List String → Sources → Sources
  | .inl includer, lines, sources =>
    Sources.takeAll files includer.separator
      (includer.allTargets files sources.scheme script lines) sources
  | .inr _, _, sources => sources

/-- The lines behind several plugins, one after another. -/
def sweepLines : List Builtin → List String → List String
  | [], lines => lines
  | plugin :: rest, lines => sweepLines rest (lines.map plugin.rewrite)

/-- The sources behind several plugins that go over the lines of a script, one after another. -/
def sweepSources (files : FileView) (script : Script) :
    List Builtin → List String → Sources → Sources
  | [], _, sources => sources
  | plugin :: rest, lines, sources =>
    sweepSources files script rest (lines.map plugin.rewrite)
      (plugin.advance files script lines sources)

/-! ## The steps of a chain -/

/-- A step in this slot runs the transform that the plugin has. -/
def Fits : Builtin → Slot → Prop
  | .inl _, slot => slot = .fullScript
  | .inr _, slot => slot ≠ .fullScript

/-- A built-in plugin has one step, in the phase that its descriptor names. -/
theorem stepsOf_eq (position : Nat) (plugin : Builtin) :
    ∃ slot, plugin.Fits slot ∧
      Chain.stepsOf position plugin = [⟨(Plugin.descriptor plugin).phase, slot, position⟩] := by
  cases plugin with
  | inl includer => exact ⟨.fullScript, rfl, rfl⟩
  | inr remover =>
      refine ⟨.ofOrder remover.order, ?_, rfl⟩
      simp only [Fits]
      cases remover.order <;> simp [Slot.ofOrder]

/-- Unless they are set up otherwise, the includer runs in the first phase and the remover in the
second. -/
theorem buildSteps_default :
    Chain.buildSteps [(.inl {} : Builtin), .inr {}] =
      [⟨.onLoad, .fullScript, 0⟩, ⟨.onFinishUp, .lineAfter, 1⟩] :=
  List.mergeSort_of_pairwise (by decide)

/-- The steps of a chain are those of its plugins. -/
theorem mem_buildSteps {plugins : List Builtin} {step : ChainStep} :
    step ∈ Chain.buildSteps plugins ↔
      ∃ plugin, plugins[step.plugin]? = some plugin ∧
        step ∈ Chain.stepsOf step.plugin plugin := by
  simp only [Chain.buildSteps, List.mem_mergeSort, List.mem_flatMap, Prod.exists,
    List.mk_mem_zipIdx_iff_getElem?]
  constructor
  · rintro ⟨plugin, position, hplugin, hstep⟩
    obtain ⟨slot, -, heq⟩ := stepsOf_eq position plugin
    obtain rfl : step.plugin = position := by
      rw [heq] at hstep
      rw [List.mem_singleton.mp hstep]
    exact ⟨plugin, hplugin, hstep⟩
  · rintro ⟨plugin, hplugin, hstep⟩
    exact ⟨plugin, step.plugin, hplugin, hstep⟩

/-- The plugins that run in a phase, in the order in which they run. -/
def active (plugins : List Builtin) (phase : Phase) : List Builtin :=
  ((Chain.buildSteps plugins).filter (·.phase == phase)).filterMap (plugins[·.plugin]?)

/-- A plugin of the chain runs in the phase that its descriptor names, and in no other. -/
theorem mem_active {plugins : List Builtin} {phase : Phase} {plugin : Builtin} :
    plugin ∈ active plugins phase ↔
      plugin ∈ plugins ∧ (Plugin.descriptor plugin).phase = phase := by
  simp only [active, List.mem_filterMap, List.mem_filter, beq_iff_eq]
  constructor
  · rintro ⟨step, ⟨hstep, rfl⟩, hplugin⟩
    obtain ⟨other, hother, hmem⟩ := mem_buildSteps.mp hstep
    obtain rfl := Option.some.inj (hplugin.symm.trans hother)
    obtain ⟨slot, -, heq⟩ := stepsOf_eq step.plugin plugin
    rw [heq, List.mem_singleton] at hmem
    refine ⟨List.mem_of_getElem? hplugin, ?_⟩
    rw [hmem]
  · rintro ⟨hmem, rfl⟩
    obtain ⟨position, hposition⟩ := List.mem_iff_getElem?.mp hmem
    obtain ⟨slot, -, heq⟩ := stepsOf_eq position plugin
    refine ⟨⟨(Plugin.descriptor plugin).phase, slot, position⟩, ⟨?_, rfl⟩, hposition⟩
    exact mem_buildSteps.mpr ⟨plugin, hposition, by simp [heq]⟩

/-! ## Running a phase -/

variable {plugins : List Builtin} {context : Context}

/-- The transform of lines rewrites each of them. -/
theorem transformLines_eq (plugin : Builtin) (hfits : ¬ plugin.Fits .fullScript)
    (lines : List String) :
    ∃ notes, Plugin.transformLines plugin lines = (lines.map plugin.rewrite, plugin, notes) := by
  cases plugin with
  | inl includer => exact absurd rfl hfits
  | inr remover =>
      induction lines with
      | nil => exact ⟨[], rfl⟩
      | cons line rest ih =>
          obtain ⟨notes, hnotes⟩ := ih
          rw [Plugin.transformLines]
          have hline : ∃ more, Plugin.transformLine line (.inr remover : Builtin) =
              (rewrite (.inr remover) line, .inr remover, more) := by
            simp only [Plugin.transformLine, rewrite]
            split
            · exact ⟨_, rfl⟩
            · exact ⟨_, rfl⟩
          obtain ⟨more, hmore⟩ := hline
          simp only [hmore, hnotes]
          exact ⟨_, rfl⟩

/-- A plugin in a slot that fits it rewrites the lines and takes in what they refer to. -/
theorem runPlugin_eq (hfiles : context.files.Readable) {plugin : Builtin} {slot : Slot}
    (hfits : plugin.Fits slot) (lines : List String) (session : Session) :
    ∃ after, Chain.runPlugin slot context lines (plugin, session) =
        .ok (lines.map plugin.rewrite) (plugin, after) ∧
      after.sources = plugin.advance context.files context.script lines session.sources := by
  cases plugin with
  | inl includer =>
      obtain rfl : slot = .fullScript := hfits
      obtain ⟨after, hrun, hafter⟩ := Includer.transform_eq hfiles lines session
      refine ⟨after, ?_, hafter⟩
      show Plugin.onPart Sum.inl includer session _ = _
      simp only [Plugin.onPart, Plugin.transformScript, hrun]
      rfl
  | inr remover =>
      obtain ⟨notes, hlines⟩ := transformLines_eq (.inr remover) (fun h => h rfl) lines
      cases slot with
      | fullScript => exact absurd rfl hfits
      | lineBefore | lineAfter =>
          simp only [Chain.runPlugin, hlines]
          exact ⟨_, rfl, rfl⟩

/-- A step whose plugin is in the chain leaves the chain as it is. -/
theorem runStep_eq (hfiles : context.files.Readable) {step : ChainStep} {plugin : Builtin}
    (hplugin : plugins[step.plugin]? = some plugin) (hfits : plugin.Fits step.slot)
    (lines : List String) (session : Session) :
    ∃ after, Chain.runStep step context lines ⟨.ofConfigured plugins, session⟩ =
        .ok (lines.map plugin.rewrite) ⟨.ofConfigured plugins, after⟩ ∧
      after.sources = plugin.advance context.files context.script lines session.sources := by
  obtain ⟨after, hrun, hafter⟩ := runPlugin_eq hfiles hfits lines session
  refine ⟨after, ?_, hafter⟩
  have hget : (Chain.ofConfigured plugins).plugins[step.plugin]? = some plugin := hplugin
  have hset : (Chain.ofConfigured plugins).plugins.set step.plugin plugin = plugins := by
    obtain ⟨hlt, heq⟩ := List.getElem?_eq_some_iff.mp hplugin
    rw [← heq]
    exact List.set_getElem_self hlt
  simp only [Chain.runStep, hget, hrun, Chain.putBack, hset]
  rfl

/-- Steps of the chain run one after another. -/
theorem runSteps_eq (hfiles : context.files.Readable) (steps : List ChainStep)
    (hsteps : ∀ step ∈ steps, step ∈ Chain.buildSteps plugins) (lines : List String)
    (session : Session) :
    ∃ after, Chain.runSteps context steps lines ⟨.ofConfigured plugins, session⟩ =
        .ok (sweepLines (steps.filterMap (plugins[·.plugin]?)) lines)
          ⟨.ofConfigured plugins, after⟩ ∧
      after.sources = sweepSources context.files context.script
        (steps.filterMap (plugins[·.plugin]?)) lines session.sources := by
  induction steps generalizing lines session with
  | nil => exact ⟨session, rfl, rfl⟩
  | cons step rest ih =>
      obtain ⟨plugin, hplugin, hmem⟩ := mem_buildSteps.mp (hsteps step (by simp))
      -- a plugin has one step only, in the slot that fits it
      obtain ⟨slot, hfits, heq⟩ := stepsOf_eq step.plugin plugin
      obtain rfl : step.slot = slot := by
        rw [heq] at hmem
        rw [List.mem_singleton.mp hmem]
      obtain ⟨middle, hrun, hmiddle⟩ := runStep_eq hfiles hplugin hfits lines session
      obtain ⟨after, hrest, hafter⟩ :=
        ih (fun other hother => hsteps other (by simp [hother])) (lines.map plugin.rewrite) middle
      have hactive : (step :: rest).filterMap (plugins[·.plugin]?) =
          plugin :: rest.filterMap (plugins[·.plugin]?) := List.filterMap_cons_some hplugin
      rw [hactive]
      refine ⟨after, (bind_of_ok hrun).trans hrest, ?_⟩
      rw [hafter, hmiddle]
      rfl

/-- The lines behind a phase and its clean-up. -/
def phaseLines (plugins : List Builtin) (phase : Phase) (lines : List String) : List String :=
  dropTokens (collectTokens (plugins.map Plugin.descriptor))
    (sweepLines (active plugins phase) lines)

/-- The sources behind a phase that goes over the lines of a script. -/
def phaseSources (plugins : List Builtin) (files : FileView) (phase : Phase) (script : Script)
    (lines : List String) (sources : Sources) : Sources :=
  sweepSources files script (active plugins phase) lines sources

/-- A phase of a chain of built-in plugins does not fail and leaves the chain as it is. -/
theorem runPhase_eq (plugins : List Builtin) (context : Context) (hfiles : context.files.Readable)
    (phase : Phase) (lines : List String) (session : Session) :
    ∃ after, Chain.runPhase phase context lines ⟨.ofConfigured plugins, session⟩ =
        .ok (phaseLines plugins phase lines) ⟨.ofConfigured plugins, after⟩ ∧
      after.sources =
        phaseSources plugins context.files phase context.script lines session.sources := by
  obtain ⟨after, hrun, hafter⟩ := runSteps_eq hfiles
    ((Chain.buildSteps plugins).filter (·.phase == phase))
    (fun step hstep => (List.mem_filter.mp hstep).1) lines session
  exact ⟨after, (bind_of_ok hrun).trans rfl, hafter⟩

end Builtin

end SourceWeave
