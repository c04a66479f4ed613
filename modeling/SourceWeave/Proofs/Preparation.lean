import SourceWeave.Command.Execute
import SourceWeave.Proofs.StoredSettings

/-!
# What a run is asked to do

The job that the command line and the configuration of a project ask for: `prepare_eq_ok` takes it
apart. Its settings hold, for each option, the last entry of the command line or else what the
configuration gives, `get?_settings`.
-/

namespace SourceWeave

/-- What is set for an option, told by a handle and a name: the last entry of the command line for
it, or else what the configuration gives. -/
def Config.setting? (config : Config) (entries : List String) (address : String × String) :
    Option String :=
  (Settings.lastWrite? (entries.filterMap Settings.parseEntry?) address.1 address.2).or
    (config.value? address.1 address.2)

namespace Command

/-- The inputs of a run, seen from the root: those of the command line, or those of the
configuration if there are none. -/
def givenInputs (config : Config) (options : RunOptions) : List Path :=
  if options.inputs.isEmpty then config.inputs else options.inputs

/-- All that is known of a job that was prepared. -/
structure Prepared (root : Path) (config : Config) (options : RunOptions) (cwd : Path) (job : Job)
    (plugins : List Builtin) : Prop where
  settings_eq : options.settings.foldlM Settings.setEntry config.toSettings = .ok job.settings
  inputs_eq : job.inputs = (givenInputs config options).map fun input => (root.join input).text
  baseDirectory_eq : job.baseDirectory = root
  scheme_eq : job.scheme? =
    if options.scheme? = some .parameterized then some (.parameterized cwd) else none
  chain_eq : Builtin.chain (options.chain?.getD config.chain) = .ok plugins

/-- A job is prepared only from entries that can be read and a chain that is known. -/
theorem prepare_eq_ok {root : Path} {config : Config} {options : RunOptions} {cwd : Path}
    {job : Job} {plugins : List Builtin}
    (h : prepare root config options cwd = .ok (job, plugins)) :
    Prepared root config options cwd job plugins := by
  have hinputs : (if options.inputs.isEmpty then config.inputsAt root
      else options.inputs.map root.join) = (givenInputs config options).map root.join := by
    unfold givenInputs
    split <;> rfl
  simp only [prepare, hinputs, bind, Except.bind, pure, Except.pure, throw, throwThe,
    MonadExceptOf.throw] at h
  split at h
  · next settings hsettings =>
    split at h
    · cases h
    · split at h
      · next others hchain =>
        cases h
        exact ⟨hsettings, by simp, rfl, rfl, hchain⟩
      · cases h
  · cases h

/-- Whether a job can be prepared is found out by preparing it. -/
theorem exists_prepared {root : Path} {config : Config} {options : RunOptions} {cwd : Path}
    (h : (prepare root config options cwd).toOption.isSome = true) :
    ∃ job plugins, prepare root config options cwd = .ok (job, plugins) := by
  cases hprepare : prepare root config options cwd with
  | error e => simp [hprepare, Except.toOption] at h
  | ok prepared => exact ⟨prepared.1, prepared.2, rfl⟩

namespace Prepared

variable {root : Path} {config : Config} {options : RunOptions} {cwd : Path} {job : Job}
  {plugins : List Builtin}

/-- The entries of the command line are written over the settings of the configuration. -/
theorem settings_eq_foldl (h : Prepared root config options cwd job plugins) :
    job.settings =
      (options.settings.filterMap Settings.parseEntry?).foldl Settings.write config.toSettings :=
  Settings.foldlM_setEntry_eq_ok h.settings_eq

/-- The settings of a prepared job hold what is set for each option. -/
theorem get?_settings (h : Prepared root config options cwd job plugins) (handle option : String) :
    job.settings.get? handle option = config.setting? options.settings (handle, option) := by
  rw [h.settings_eq_foldl, Settings.get?_foldl_write, Config.get?_toSettings, Config.setting?]

end Prepared

end Command

end SourceWeave
