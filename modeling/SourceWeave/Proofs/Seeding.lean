import SourceWeave.Proofs.Joining
import SourceWeave.Proofs.Preparation
import SourceWeave.Proofs.Processing
import SourceWeave.Proofs.Trimming

/-!
# Where the inputs of a run are looked for

An input is seen from the root of the project when a job is prepared, and the references of a job
are seen from the root once more when they are resolved. A run therefore takes in the files that the
inputs name from the root as it is seen from itself: `Run.seed_eq_seedFiles`. For an absolute root
this is the root. A relative root is gone through twice, so the inputs are those of the project only
if going through it a second time leads nowhere else. The main statement is `inputs_seeded_iff`.
-/

namespace SourceWeave

namespace Text

/-- Tells whether the text begins with neither a blank nor a quote. -/
def startsPlain (text : String) : Bool :=
  text.toList.head?.all fun c => !isBlank c && !isQuote c

/-- Tells whether the text does not end in a blank. -/
def endsPlain (text : String) : Bool :=
  text.toList.getLast?.all fun c => !isBlank c

theorem startsPlain_iff {text : String} :
    startsPlain text = true ↔
      ∀ c, text.toList.head? = some c → isBlank c = false ∧ isQuote c = false := by
  simp [startsPlain, Option.all_eq_true]

theorem endsPlain_iff {text : String} :
    endsPlain text = true ↔ ∀ c, text.toList.getLast? = some c → isBlank c = false := by
  simp [endsPlain, Option.all_eq_true]

/-- The text is not empty, and there are no blanks and no quotes around it. -/
structure IsPlain (text : String) : Prop where
  ne_nil : text.toList ≠ []
  starts : startsPlain text = true
  ends : endsPlain text = true

theorem IsPlain.unpadded {text : String} (h : IsPlain text) : Unpadded text.toList := by
  obtain ⟨c, rest, htext⟩ := List.exists_cons_of_ne_nil h.ne_nil
  have hhead : text.toList.head? = some c := by rw [htext, List.head?_cons]
  have hlast := List.getLast?_eq_some_getLast h.ne_nil
  exact ⟨⟨c, rest, htext, (startsPlain_iff.mp h.starts c hhead).1⟩,
    ⟨_, _, (List.dropLast_append_getLast h.ne_nil).symm, endsPlain_iff.mp h.ends _ hlast⟩⟩

/-- A plain text stands for itself. -/
theorem IsPlain.unquote?_eq {text : String} (h : IsPlain text) : unquote? text = some text := by
  unfold unquote?
  rw [h.unpadded.trimChars_eq_self]
  cases htext : text.toList with
  | nil => exact absurd htext h.ne_nil
  | cons c rest =>
      have hquote : isQuote c = false := (startsPlain_iff.mp h.starts c (by rw [htext]; rfl)).2
      simp only [hquote, Bool.false_eq_true, if_false]
      rw [← htext, String.ofList_toList]

end Text

namespace Path

/-- An input that is seen from the root of the project and stands for itself. -/
structure IsPlainInput (input : Path) : Prop where
  relative : ¬ input.isAbsolute = true
  plain : Text.IsPlain input.text

/-- A slash is neither a blank nor a quote. -/
theorem startsPlain_of_isAbsolute {path : Path} (h : path.isAbsolute = true) :
    Text.startsPlain path.text = true := by
  refine Text.startsPlain_iff.mpr fun c hc => ?_
  have hslash : path.text.toList.head? = some '/' := by simpa [isAbsolute] using h
  obtain rfl : '/' = c := Option.some.inj (hslash.symm.trans hc)
  decide

/-- Seen from a root that begins plainly, a plain input stands for itself. -/
theorem IsPlainInput.join {root input : Path} (hroot : Text.startsPlain root.text = true)
    (h : input.IsPlainInput) : Text.IsPlain (root.join input).text := by
  by_cases hempty : root.text.toList = []
  · rw [join_of_nil hempty]
    exact h.plain
  · obtain ⟨front, htext, -⟩ := exists_toList_join hempty h.relative
    refine ⟨by simp [htext], ?_, Text.endsPlain_iff.mpr fun c hc => ?_⟩
    · rw [Text.startsPlain, head?_join hempty h.relative]
      exact hroot
    · have hlast : (front ++ '/' :: input.text.toList).getLast? = input.text.toList.getLast? := by
        rw [List.append_cons, List.getLast?_append_of_ne_nil _ h.plain.ne_nil]
      rw [htext, hlast] at hc
      exact Text.endsPlain_iff.mp h.plain.ends c hc

end Path

/-- A reference of a single token is resolved alike by both built-in schemes. -/
theorem Scheme.Builtin.resolve_eq {cwd : Path} {scheme : Scheme} (h : Scheme.Builtin cwd scheme)
    {token reference : String} (htoken : Text.unquote? token = some reference) (directory : Path) :
    scheme.resolve [token] directory =
      .resolved ((directory.join ⟨reference⟩).normalize cwd).key
        ((directory.join ⟨reference⟩).normalize cwd) := by
  have hbase : resolvePathKey cwd [token] directory =
      .resolved ((directory.join ⟨reference⟩).normalize cwd).key
        ((directory.join ⟨reference⟩).normalize cwd) := by
    simp [resolvePathKey, htoken]
  cases h with
  | pathKey => exact hbase
  | parameterized =>
      show resolveParameterized cwd [token] directory = _
      simp [resolveParameterized, hbase, parameters?]

namespace Run

/-- The script of a file, told apart by the path of the file. -/
def readScript (files : FileView) (separator : String) (path : Path) :
    EStateM Error Session Script := fun session =>
  if files.isFile path then
    match files.readLines path with
    | .ok lines => .ok ⟨path.key, path, lines, .resolved path.key path, separator⟩ session
    | .error e => .error e session
  else .error (.missingInput path.text) session

/-- Takes files in, one after another. -/
def seedFiles (files : FileView) (separator : String) : List Path → EStateM Error Session Unit
  | [] => pure ()
  | path :: rest => do
    let script ← readScript files separator path
    modify (·.enqueue script)
    seedFiles files separator rest

variable {files : FileView} {job : Job} {cwd : Path} {session : Session}

/-- An input that stands for a reference is the file that the reference leads to. -/
theorem loadInput_eq (hscheme : Scheme.Builtin cwd session.sources.scheme)
    (hlock : session.sources.locked = false) {input reference : String}
    (hinput : Text.unquote? input = some reference) :
    loadInput files job input session =
      readScript files job.separator ((job.baseDirectory.join ⟨reference⟩).normalize cwd)
        session := by
  have hresolve := hscheme.resolve_eq hinput job.baseDirectory
  generalize (job.baseDirectory.join ⟨reference⟩).normalize cwd = path at hresolve
  simp only [loadInput, readScript, Sources.resolve, hresolve, Resolution.path?_resolved]
  cases files.isFile path with
  | false => rfl
  | true =>
      cases files.readLines path with
      | error e => rfl
      | ok lines =>
          simp [Session.tryCreate?, Sources.tryCreate?, Script.ofResolution?, hlock]

theorem readScript_eq_ok {separator : String} {path : Path} {script : Script} {after : Session}
    (h : readScript files separator path session = .ok script after) : after = session := by
  unfold readScript at h
  split at h
  · split at h
    · cases h
      rfl
    · cases h
  · cases h

/-- Inputs that are seen from the root are seen from it once more when they are looked for. -/
theorem seed_eq_seedFiles (hscheme : Scheme.Builtin cwd session.sources.scheme)
    (hlock : session.sources.locked = false) {inputs : List Path}
    (hroot : Text.startsPlain job.baseDirectory.text = true)
    (hinputs : ∀ input ∈ inputs, input.IsPlainInput) :
    seed files job (inputs.map fun input => (job.baseDirectory.join input).text) session =
      seedFiles files job.separator
        (inputs.map fun input =>
          (job.baseDirectory.join (job.baseDirectory.join input)).normalize cwd) session := by
  induction inputs generalizing session with
  | nil => rfl
  | cons input rest ih =>
      have hplain := (hinputs input (by simp)).join hroot
      have hload : loadInput files job (job.baseDirectory.join input).text session =
          readScript files job.separator
            ((job.baseDirectory.join (job.baseDirectory.join input)).normalize cwd) session :=
        loadInput_eq hscheme hlock hplain.unquote?_eq
      rw [List.map_cons, List.map_cons, seed, seedFiles]
      cases hread : readScript files job.separator
          ((job.baseDirectory.join (job.baseDirectory.join input)).normalize cwd) session with
      | error e failed => simp only [bind, EStateM.bind, hload, hread]
      | ok script after =>
          obtain rfl := readScript_eq_ok hread
          rw [bind_of_ok (hload.trans hread), bind_of_ok hread]
          show seed files job _ (after.enqueue script) =
            seedFiles files job.separator _ (after.enqueue script)
          -- to put a script in changes neither the scheme nor the lock
          refine ih ?_ ?_ fun other hother => hinputs other (by simp [hother])
          · rw [Session.sources_enqueue, Sources.scheme_enqueue]
            exact hscheme
          · rw [Session.sources_enqueue, Sources.locked_enqueue]
            exact hlock

end Run

namespace Command

/-- Where a run looks for an input: from the root of the project as it is seen from itself. -/
def seededPath (root cwd input : Path) : Path :=
  ((root.join root).join input).normalize cwd

/-- Where an input of the project is: from the root as it is seen from the working directory. -/
def projectPath (root cwd input : Path) : Path :=
  ((cwd.join root).join input).normalize cwd

/-- The root of the project, seen from itself, is the same directory. -/
def RootFixed (root cwd : Path) : Prop :=
  (root.join root).normalize cwd = root.normalize cwd

instance (root cwd : Path) : Decidable (RootFixed root cwd) :=
  inferInstanceAs (Decidable (_ = _))

theorem rootFixed_of_isAbsolute {root : Path} (h : root.isAbsolute = true) (cwd : Path) :
    RootFixed root cwd := by
  rw [RootFixed, Path.join_absolute h]

theorem rootFixed_iff {root cwd : Path} :
    RootFixed root cwd ↔ root.follow (root.follow (cwd.follow .empty)) =
      root.follow (cwd.follow .empty) := by
  rw [RootFixed, Path.normalize_eq_iff, Path.follow_join]

/-- The two places of an input are the same exactly if the input leads there from both. -/
theorem seededPath_eq_iff {root cwd input : Path} (hcwd : cwd.isAbsolute = true) :
    seededPath root cwd input = projectPath root cwd input ↔
      input.follow (root.follow (root.follow (cwd.follow .empty))) =
        input.follow (root.follow (cwd.follow .empty)) := by
  rw [seededPath, projectPath, Path.normalize_eq_iff, Path.follow_join, Path.follow_join,
    Path.follow_join, Path.follow_join, Path.follow_absolute hcwd (cwd.follow .empty) .empty]

end Command

/-- A run takes in the files that its inputs name from the root as it is seen from itself. These are
the files of the project if the root is absolute, or if it leads nowhere else when it is gone
through twice, and only then for an input without `..`. Left out are relative roots that begin with
a blank or a quote, which is lost when an input is resolved, and inputs that are absolute, empty,
begin with a blank or a quote, or end in a blank. -/
theorem inputs_seeded_iff {root : Path} {config : Config} {options : Command.RunOptions}
    {cwd : Path} {job : Job} {plugins : List Builtin} {notes : List Note} {chain : Chain Builtin}
    {configured : Session} (files : FileView)
    (hprepare : Command.prepare root config options cwd = .ok (job, plugins))
    (hcwd : cwd.isAbsolute = true)
    (hroot : root.isAbsolute = true ∨ Text.startsPlain root.text = true)
    (hinputs : ∀ input ∈ Command.givenInputs config options, input.IsPlainInput)
    (hconfigure : Chain.configure job.settings job.definitions plugins
      (((Session.start cwd).addNotes notes).setScheme job.scheme?) = .ok chain configured) :
    Run.seed files job job.inputs (configured.setLock false) =
        Run.seedFiles files job.separator
          ((Command.givenInputs config options).map (Command.seededPath root cwd))
          (configured.setLock false) ∧
      (root.isAbsolute = true → Command.RootFixed root cwd) ∧
      (Command.RootFixed root cwd → ∀ input ∈ Command.givenInputs config options,
        Command.seededPath root cwd input = Command.projectPath root cwd input) ∧
      ∀ input ∈ Command.givenInputs config options, .parent ∉ input.components →
        Command.seededPath root cwd input = Command.projectPath root cwd input →
          Command.RootFixed root cwd := by
  have hprepared := Command.prepare_eq_ok hprepare
  obtain rfl := hprepared.baseDirectory_eq
  have hsources : (configured.setLock false).sources = job.opened cwd := by
    obtain ⟨-, -, -, hsources⟩ := Builtin.configure_eq_ok hconfigure
    rw [Session.sources_setLock, hsources]
    unfold Job.opened Job.schemeFrom
    cases job.scheme? <;> rfl
  have hscheme : Scheme.Builtin cwd (configured.setLock false).sources.scheme := by
    rw [hsources]
    refine job.builtin_schemeFrom fun scheme hscheme => ?_
    rw [hprepared.scheme_eq] at hscheme
    split at hscheme
    · obtain rfl := Option.some.inj hscheme
      exact .parameterized
    · cases hscheme
  have hstarts := hroot.elim Path.startsPlain_of_isAbsolute id
  refine ⟨?_, fun h => Command.rootFixed_of_isAbsolute h cwd, fun hfixed input _ => ?_,
    fun input hinput hparent heq => ?_⟩
  · rw [hprepared.inputs_eq, Run.seed_eq_seedFiles hscheme rfl hstarts hinputs]
    have htwice : ∀ input, (job.baseDirectory.join (job.baseDirectory.join input)).normalize cwd =
        Command.seededPath job.baseDirectory cwd input := by
      intro input
      rw [Command.seededPath, Path.normalize_eq_iff]
      simp only [Path.follow_join]
    simp only [htwice]
  · rw [Command.seededPath_eq_iff hcwd, Command.rootFixed_iff.mp hfixed]
  · rw [Command.rootFixed_iff]
    exact Path.follow_injective (hinputs input hinput).relative hparent
      ((Command.seededPath_eq_iff hcwd).mp heq)

/-- A root beside the working directory, which leads to the same directory however often it is gone
through. -/
theorem inputs_seeded_beside :
    ∃ job plugins chain configured,
      Command.prepare ⟨"../lib"⟩ {} { inputs := [⟨"src/util"⟩] } ⟨"/w/app"⟩ = .ok (job, plugins) ∧
      Chain.configure job.settings job.definitions plugins
        (((Session.start ⟨"/w/app"⟩).addNotes []).setScheme job.scheme?) = .ok chain configured ∧
      ∀ files, Run.seed files job job.inputs (configured.setLock false) =
        Run.seedFiles files job.separator [⟨"/w/lib/src/util"⟩] (configured.setLock false) := by
  obtain ⟨job, plugins, hprepare⟩ := Command.exists_prepared
    (show (Command.prepare ⟨"../lib"⟩ {} { inputs := [⟨"src/util"⟩] } ⟨"/w/app"⟩).toOption.isSome =
      true by decide +kernel)
  have hprepared := Command.prepare_eq_ok hprepare
  have hplugins : [.inl {}, .inr {}] = plugins := Except.ok.inj hprepared.chain_eq
  have hsetUp : plugins.mapM (Builtin.setUp job.settings) = .ok [.inl {}, .inr {}] := by
    rw [← hplugins, hprepared.settings_eq_foldl]
    decide +kernel
  obtain ⟨configured, hdone, -⟩ := Builtin.configurePlugins_of_ok hsetUp job.definitions
    (((Session.start ⟨"/w/app"⟩).addNotes []).setScheme job.scheme?)
  have hconfigure : Chain.configure job.settings job.definitions plugins
      (((Session.start ⟨"/w/app"⟩).addNotes []).setScheme job.scheme?) =
        .ok (.ofConfigured [.inl {}, .inr {}]) configured := by
    rw [Chain.configure, bind_of_ok hdone]
    rfl
  refine ⟨job, plugins, _, configured, hprepare, hconfigure, fun files => ?_⟩
  have hinput : (Path.mk "src/util").IsPlainInput :=
    ⟨by decide, by decide, by decide +kernel, by decide +kernel⟩
  have hseeded := inputs_seeded_iff files hprepare (by decide +kernel)
    (.inr (by decide +kernel)) (fun input hmem => List.mem_singleton.mp hmem ▸ hinput) hconfigure
  have hplace : Command.seededPath ⟨"../lib"⟩ ⟨"/w/app"⟩ ⟨"src/util"⟩ = ⟨"/w/lib/src/util"⟩ := by
    decide +kernel
  rw [hseeded.1, ← hplace]
  rfl

/-- A disk with a working directory and a project in it. -/
def nestedDisk : Disk where
  nodes := Std.TreeMap.ofList [(["w"], DiskNode.directory), (["w", "lib"], .directory),
    (["w", "lib", "util"], .file "util\n".toUTF8)]
  workingDirectory := ["w"]

set_option maxRecDepth 10000 in
/-- A root below the working directory is gone through twice, so a file of the project is not
found. -/
theorem input_sought_below_root_twice :
    nestedDisk.isFile (Command.projectPath ⟨"lib"⟩ nestedDisk.workingPath ⟨"util"⟩) = true ∧
      (Command.execute nestedDisk none ["run", "util", "-p", "lib"]).failure? =
        some (.refused (.missingInput "/w/lib/lib/util")) := by
  constructor
  · decide +kernel
  · decide +kernel

end SourceWeave
