import SourceWeave.Proofs.Seeding

/-!
# Why a run fails

A run of built-in plugins over files held in memory fails in two places only: a plugin cannot be
configured, or an input cannot be taken in. `Job.pluginFault?` and `Job.inputFault?` say when that
is so without running anything, and `error?_run` says that the error of a run is the first of these
faults. What the files contain has no part in it. The main statement is `run_fails_iff`.
-/

namespace SourceWeave

open Run

/-- The error of a computation that fails. -/
def Run.error? {σ α : Type} : EStateM.Result Error σ α → Option Error
  | .ok _ _ => none
  | .error e _ => some e

/-- The error of an attempt that fails. -/
def refusal? {α : Type} : Except Error α → Option Error
  | .ok _ => none
  | .error e => some e

theorem Run.error?_eq_some_iff {σ α : Type} {result : EStateM.Result Error σ α} {e : Error} :
    error? result = some e ↔ ∃ state, result = .error e state := by
  cases result with
  | ok a state => simp [error?]
  | error e' state => simp [error?]

/-- A list is gone through up to the first member that is refused. -/
theorem refusal?_mapM {α β : Type} (work : α → Except Error β) (as : List α) :
    refusal? (as.mapM work) = as.findSome? fun a => refusal? (work a) := by
  induction as with
  | nil => rfl
  | cons a rest ih =>
      rw [List.mapM_cons, List.findSome?_cons, ← ih]
      cases work a with
      | error e => rfl
      | ok b => cases rest.mapM work <;> rfl

namespace Job

/-- The sources with which the plugins of a run are configured. -/
def unconfigured (job : Job) (cwd : Path) : Session :=
  (Session.start cwd).setScheme job.scheme?

/-- Why a plugin cannot be configured for a run, if it cannot. -/
def pluginFault? {π : Type} [Plugin π] (job : Job) (cwd : Path) (plugin : π) : Option Error :=
  error? (Plugin.configure job.settings job.definitions plugin (job.unconfigured cwd))

/-- Why an input cannot be taken into a run, if it cannot: it does not resolve, or there is no file
under the path that it resolves to. -/
def inputFault? (job : Job) (store : MemoryFiles) (cwd : Path) (input : String) : Option Error :=
  match ((job.schemeFrom cwd).resolve [input] job.baseDirectory).path? with
  | none => some (.unresolvedInput input)
  | some path =>
    if (store.get? path).isSome then none else some (.missingInput path.text)

/-- The first fault among the plugins, and if they have none, the first among the inputs. -/
def firstFault? {π : Type} [Plugin π] (job : Job) (store : MemoryFiles) (cwd : Path)
    (plugins : List π) : Option Error :=
  (plugins.findSome? (job.pluginFault? cwd)).or (job.inputs.findSome? (job.inputFault? store cwd))

end Job

namespace Builtin

variable {job : Job} {cwd : Path}

/-- A built-in plugin cannot be configured exactly if it cannot be set up. -/
theorem pluginFault?_eq (job : Job) (cwd : Path) (plugin : Builtin) :
    job.pluginFault? cwd plugin = refusal? (setUp job.settings plugin) := by
  rw [Job.pluginFault?, configure_eq]
  cases setUp job.settings plugin <;> rfl

/-- A chain of built-in plugins fails with the first of its faults. -/
theorem error?_configure (job : Job) (cwd : Path) (plugins : List Builtin) :
    error? (Chain.configure job.settings job.definitions plugins (job.unconfigured cwd)) =
      plugins.findSome? (job.pluginFault? cwd) := by
  have hfaults : plugins.findSome? (job.pluginFault? cwd) =
      refusal? (plugins.mapM (setUp job.settings)) := by
    rw [refusal?_mapM, funext (pluginFault?_eq job cwd)]
  rw [hfaults]
  cases hmap : plugins.mapM (setUp job.settings) with
  | error e =>
      obtain ⟨failed, hfailed⟩ :=
        configurePlugins_of_error hmap job.definitions (job.unconfigured cwd)
      simp only [Chain.configure, bind, EStateM.bind, hfailed]
      rfl
  | ok configured =>
      obtain ⟨after, hafter, -⟩ :=
        configurePlugins_of_ok hmap job.definitions (job.unconfigured cwd)
      rw [Chain.configure, bind_of_ok hafter]
      rfl

end Builtin

/-- A token that stands for nothing does not resolve. -/
theorem Scheme.Builtin.path?_eq_none {cwd : Path} {scheme : Scheme} (h : Scheme.Builtin cwd scheme)
    {token : String} (htoken : Text.unquote? token = none) (directory : Path) :
    (scheme.resolve [token] directory).path? = none := by
  cases h with
  | pathKey => simp [Scheme.pathKey, resolvePathKey, htoken]
  | parameterized => simp [Scheme.parameterized, resolveParameterized, resolvePathKey, htoken]

namespace Run

variable {job : Job} {cwd : Path} {session : Session}

/-- An input is refused for its fault, and taken in if it has none. -/
theorem loadInput_of_builtin (store : MemoryFiles)
    (hscheme : Scheme.Builtin cwd (job.schemeFrom cwd))
    (hsources : session.sources.scheme = job.schemeFrom cwd)
    (hlock : session.sources.locked = false) (input : String) :
    match job.inputFault? store cwd input with
    | some e => loadInput store.view job input session = .error e session
    | none => ∃ script, loadInput store.view job input session = .ok script session := by
  cases hinput : Text.unquote? input with
  | none =>
      have hfailed := hscheme.path?_eq_none hinput job.baseDirectory
      simp only [Job.inputFault?, hfailed, loadInput, Sources.resolve, hsources]
  | some reference =>
      have hresolve := hscheme.resolve_eq hinput job.baseDirectory
      rw [← hsources] at hscheme
      rw [loadInput_eq hscheme hlock hinput]
      simp only [Job.inputFault?, hresolve, Resolution.path?_resolved]
      generalize (job.baseDirectory.join ⟨reference⟩).normalize cwd = path
      cases hfile : store.get? path with
      | none => simp [readScript, MemoryFiles.view, hfile]
      | some file => simp [readScript, MemoryFiles.view, MemoryFiles.readLines, hfile]

/-- Inputs are taken in up to the first one with a fault. -/
theorem error?_seed (store : MemoryFiles) (hscheme : Scheme.Builtin cwd (job.schemeFrom cwd))
    (inputs : List String)
    (hsources : session.sources.scheme = job.schemeFrom cwd)
    (hlock : session.sources.locked = false) :
    error? (seed store.view job inputs session) =
      inputs.findSome? (job.inputFault? store cwd) := by
  induction inputs generalizing session with
  | nil => rfl
  | cons input rest ih =>
      have hload := loadInput_of_builtin store hscheme hsources hlock input
      rw [List.findSome?_cons, seed]
      cases hfault : job.inputFault? store cwd input with
      | some e =>
          rw [hfault] at hload
          simp only [bind, EStateM.bind, hload]
          rfl
      | none =>
          rw [hfault] at hload
          obtain ⟨script, hscript⟩ := hload
          rw [bind_of_ok hscript]
          -- to put a script in changes neither the scheme nor the lock
          show error? (seed store.view job rest (session.enqueue script)) = _
          refine ih ?_ ?_
          · rw [Session.sources_enqueue, Sources.scheme_enqueue, hsources]
          · rw [Session.sources_enqueue, Sources.locked_enqueue, hlock]

/-- The error of a run is the first fault, and a run without faults puts something out. -/
theorem error?_run {store : MemoryFiles} {handles : List String} {plugins : List Builtin}
    {limit : Nat}
    (hchain : Builtin.chain handles = .ok plugins)
    (hscheme : ∀ scheme, job.scheme? = some scheme → Scheme.Builtin cwd scheme)
    (hlimit : Command.processingBound job.inputs.length store.toList.length store.lineCount ≤
      limit) :
    error? (job.run store.view plugins limit (Session.start cwd)) =
        job.firstFault? store cwd plugins ∧
      (job.firstFault? store cwd plugins = none → ∃ output final,
        job.run store.view plugins limit (Session.start cwd) = .ok (some output) final) := by
  have hbuiltin := job.builtin_schemeFrom hscheme
  have hplugins := Builtin.error?_configure job cwd plugins
  rw [Job.firstFault?, ← hplugins]
  cases hconfigure : Chain.configure job.settings job.definitions plugins
      (job.unconfigured cwd) with
  | error e failed =>
      rw [run_of_configure_error hconfigure]
      exact ⟨rfl, nofun⟩
  | ok chain opened =>
      have hopened : (opened.setLock false).sources = job.opened cwd := by
        rw [Session.sources_setLock, Builtin.sources_configure hconfigure]
        rfl
      have hinputs := error?_seed store hbuiltin job.inputs
        (congrArg Sources.scheme hopened) (congrArg Sources.locked hopened)
      rw [run_of_configure hconfigure, process_eq, ← hinputs]
      cases hseed : seed store.view job job.inputs (opened.setLock false) with
      | error e failed => exact ⟨rfl, nofun⟩
      | ok _ seeded =>
          obtain ⟨configured, hconfigured, rfl, -⟩ := Builtin.configure_eq_ok hconfigure
          obtain ⟨output, final, course, hlength⟩ :=
            Builtin.exists_course hchain hbuiltin hconfigured hconfigure hseed
          have hrun := course.run_eq (Nat.lt_of_lt_of_le hlength hlimit)
          rw [run_of_configure hconfigure, process_eq, hseed] at hrun
          rw [hrun]
          exact ⟨rfl, fun _ => ⟨output, final, rfl⟩⟩

end Run

/-- There is a fault exactly if a plugin cannot be configured or an input leads to no file. -/
theorem Job.isSome_firstFault? {π : Type} [Plugin π] {job : Job} {store : MemoryFiles} {cwd : Path}
    {plugins : List π} :
    (job.firstFault? store cwd plugins).isSome = true ↔
      (∃ plugin ∈ plugins, ∃ e failed,
        Plugin.configure job.settings job.definitions plugin (job.unconfigured cwd) =
          .error e failed) ∨
        ∃ input ∈ job.inputs, ∀ path,
          ((job.schemeFrom cwd).resolve [input] job.baseDirectory).path? = some path →
            store.get? path = none := by
  have hplugin : ∀ plugin : π, (job.pluginFault? cwd plugin).isSome = true ↔ ∃ e failed,
      Plugin.configure job.settings job.definitions plugin (job.unconfigured cwd) =
        .error e failed := by
    intro plugin
    rw [Option.isSome_iff_exists, pluginFault?]
    exact exists_congr fun e => error?_eq_some_iff
  have hinput : ∀ input, (job.inputFault? store cwd input).isSome = true ↔ ∀ path,
      ((job.schemeFrom cwd).resolve [input] job.baseDirectory).path? = some path →
        store.get? path = none := by
    intro input
    unfold inputFault?
    cases ((job.schemeFrom cwd).resolve [input] job.baseDirectory).path? with
    | none => simp
    | some path => cases hfile : store.get? path <;> simp [hfile]
  simp only [firstFault?, Option.isSome_or, Bool.or_eq_true, List.findSome?_isSome_iff, hplugin,
    hinput]

/-- A run of built-in plugins over files held in memory, with room for all scripts, fails exactly if
a plugin cannot be configured or an input does not lead to a file. It fails for the first such
plugin, or else for the first such input, and a run that does not fail puts something out. Whatever
the files contain, the same paths lead to the same error. -/
theorem run_fails_iff {store : MemoryFiles} {job : Job} {cwd : Path} {handles : List String}
    {plugins : List Builtin} {limit : Nat} (hchain : Builtin.chain handles = .ok plugins)
    (hscheme : ∀ scheme, job.scheme? = some scheme → Scheme.Builtin cwd scheme)
    (hlimit : Command.processingBound job.inputs.length store.toList.length store.lineCount ≤
      limit) :
    ((∃ e final, job.run store.view plugins limit (Session.start cwd) = .error e final) ↔
      (∃ plugin ∈ plugins, ∃ e failed,
        Plugin.configure job.settings job.definitions plugin (job.unconfigured cwd) =
          .error e failed) ∨
        ∃ input ∈ job.inputs, ∀ path,
          ((job.schemeFrom cwd).resolve [input] job.baseDirectory).path? = some path →
            store.get? path = none) ∧
    (∀ e final, job.run store.view plugins limit (Session.start cwd) = .error e final →
      job.firstFault? store cwd plugins = some e) ∧
    ((¬ ∃ e final, job.run store.view plugins limit (Session.start cwd) = .error e final) →
      ∃ output final,
        job.run store.view plugins limit (Session.start cwd) = .ok (some output) final) ∧
    ∀ (other : MemoryFiles) (limit' : Nat),
      (∀ path, (other.get? path).isSome = (store.get? path).isSome) →
      Command.processingBound job.inputs.length other.toList.length other.lineCount ≤ limit' →
        error? (job.run other.view plugins limit' (Session.start cwd)) =
          error? (job.run store.view plugins limit (Session.start cwd)) := by
  obtain ⟨herror, houtput⟩ := error?_run hchain hscheme hlimit
  have hfails : (∃ e final, job.run store.view plugins limit (Session.start cwd) = .error e final) ↔
      (job.firstFault? store cwd plugins).isSome = true := by
    rw [← herror, Option.isSome_iff_exists]
    exact exists_congr fun e => error?_eq_some_iff.symm
  refine ⟨hfails.trans Job.isSome_firstFault?, ?_, ?_, ?_⟩
  · intro e final hrun
    rw [← herror, hrun]
    rfl
  · intro hnone
    rw [hfails, Bool.not_eq_true, Option.isSome_eq_false_iff, Option.isNone_iff_eq_none] at hnone
    exact houtput hnone
  · intro other limit' hpaths hlimit'
    have hfault : job.inputFault? other cwd = job.inputFault? store cwd := by
      funext input
      simp only [Job.inputFault?, hpaths]
    rw [herror, (error?_run hchain hscheme hlimit').1, Job.firstFault?, Job.firstFault?, hfault]

/-- A file with directives that lead nowhere, back to the file, or cannot be read. -/
def troubledFiles : MemoryFiles :=
  .ofList [(⟨"/a"⟩, "#include\n#include /a\n#include /x\n#include [*\n#include \"x\n#include x*\n")]

set_option maxRecDepth 10000 in
theorem run_fails_iff_missing :
    (∃ final, Job.run { inputs := ["/a", "/x", ""] } troubledFiles.view [(.inl {} : Builtin)] 99
        (Session.start ⟨"/"⟩) = .error (.missingInput "/x") final) ∧
      ∃ output final, Job.run { inputs := ["/a"] } troubledFiles.view [(.inl {} : Builtin)] 99
        (Session.start ⟨"/"⟩) = .ok (some output) final := by
  have hchain : Builtin.chain ["inc"] = .ok [.inl {}] := rfl
  constructor
  · obtain ⟨hiff, hfirst, -, -⟩ := @run_fails_iff troubledFiles { inputs := ["/a", "/x", ""] } ⟨"/"⟩
      ["inc"] [.inl {}] 99 hchain nofun (by decide +kernel)
    have hmissing : troubledFiles.get? ⟨"/x"⟩ = none := by decide +kernel
    obtain ⟨e, final, hrun⟩ := hiff.mpr (.inr ⟨"/x", by simp, fun path hpath => by
      have hx : ((Job.schemeFrom { inputs := ["/a", "/x", ""] } ⟨"/"⟩).resolve ["/x"] ⟨""⟩).path? =
          some ⟨"/x"⟩ := by decide +kernel
      rw [← Option.some.inj (hx.symm.trans hpath), hmissing]⟩)
    have hfault : Job.firstFault? { inputs := ["/a", "/x", ""] } troubledFiles ⟨"/"⟩
        [(.inl {} : Builtin)] = some (.missingInput "/x") := by decide +kernel
    obtain rfl := Option.some.inj (hfault.symm.trans (hfirst e final hrun))
    exact ⟨final, hrun⟩
  · obtain ⟨-, hfirst, hok, -⟩ := @run_fails_iff troubledFiles { inputs := ["/a"] } ⟨"/"⟩
      ["inc"] [.inl {}] 99 hchain nofun (by decide +kernel)
    refine hok ?_
    rintro ⟨e, final, hrun⟩
    have hfault : Job.firstFault? { inputs := ["/a"] } troubledFiles ⟨"/"⟩
        [(.inl {} : Builtin)] = none := by decide +kernel
    exact absurd (hfault.symm.trans (hfirst e final hrun)) (by simp)

end SourceWeave
