import SourceWeave.Proofs.Failure
import SourceWeave.Proofs.Keys
import SourceWeave.Proofs.KeptLines

/-!
# The files that a run reaches under either scheme

A built-in scheme decides under which keys a file is put out, and a run under one scheme may put a
file out several times where the other does so once. The files are the same: `Includer.Reaches` says
without a run, and without keys, which files the inputs and the directives lead to, and
`Run.Course.exists_emitted_iff_reaches` says that these are the files that are put out, whichever of
the two schemes is in use. The main statement is `schemes_reach_same_files`.
-/

namespace SourceWeave

open Run

/-! ## References under either scheme -/

namespace Scheme

variable {cwd directory path path' : Path} {scheme : Scheme} {tokens tokens' : List String}

theorem exists_parameters (h : ∀ token ∈ tokens, (Text.unquote? token).isSome = true) :
    ∃ parameters, parameters? tokens = some parameters := by
  induction tokens with
  | nil => exact ⟨[], rfl⟩
  | cons token rest ih =>
      obtain ⟨parameter, hparameter⟩ := Option.isSome_iff_exists.mp (h token (by simp))
      obtain ⟨parameters, hparameters⟩ := ih fun other hother => h other (by simp [hother])
      exact ⟨parameter :: parameters, by rw [parameters?, hparameter, hparameters]; rfl⟩

/-- Parameters that stand for something leave the path alone. -/
theorem path?_parameterized {parameters : List String}
    (h : parameters? tokens.tail = some parameters) :
    ((parameterized cwd).resolve tokens directory).path? =
      ((pathKey cwd).resolve tokens directory).path? := by
  show (resolveParameterized cwd tokens directory).path? =
    (resolvePathKey cwd tokens directory).path?
  rw [resolveParameterized]
  rcases resolvePathKey_cases cwd tokens directory with hfail | ⟨reference, hresolved⟩
  · simp [hfail]
  · simp only [hresolved, Resolution.key?_resolved, h]
    cases parameters with
    | nil => rfl
    | cons first others => exact Resolution.path?_setValue_key _ _

namespace Builtin

variable (h : Builtin cwd scheme)

include h in
/-- What has a path has a key. -/
theorem exists_key (hpath : (scheme.resolve tokens directory).path? = some path) :
    ∃ key, (scheme.resolve tokens directory).key? = some key := by
  cases h with
  | pathKey => exact ⟨_, key?_pathKey hpath⟩
  | parameterized => exact Scheme.exists_key hpath

include h in
/-- The path of a reference does not depend on the scheme. -/
theorem path?_pathKey (hpath : (scheme.resolve tokens directory).path? = some path) :
    ((Scheme.pathKey cwd).resolve tokens directory).path? = some path := by
  cases h with
  | pathKey => exact hpath
  | parameterized =>
      obtain ⟨key, hkey⟩ := Scheme.exists_key hpath
      obtain ⟨parameters, hparameters, -⟩ := resolveParameterized_eq hkey hpath
      rw [← path?_parameterized hparameters, hpath]

include h in
/-- Nor does whether it has one, if the parameters stand for something. -/
theorem path?_of_pathKey {parameters : List String}
    (hparameters : parameters? tokens.tail = some parameters)
    (hpath : ((Scheme.pathKey cwd).resolve tokens directory).path? = some path) :
    (scheme.resolve tokens directory).path? = some path := by
  cases h with
  | pathKey => exact hpath
  | parameterized => rw [path?_parameterized hparameters, hpath]

include h in
/-- Without backslashes and question marks in the paths, the same key belongs to the same path. -/
theorem path_unique {key : String} {directory' : Path}
    (hkey : (scheme.resolve tokens directory).key? = some key)
    (hpath : (scheme.resolve tokens directory).path? = some path)
    (hkey' : (scheme.resolve tokens' directory').key? = some key)
    (hpath' : (scheme.resolve tokens' directory').path? = some path')
    (hplain : path.IsPlain cwd ∧ '?' ∉ path.text.toList)
    (hplain' : path'.IsPlain cwd ∧ '?' ∉ path'.text.toList) : path = path' := by
  refine hplain.1.eq_of_key_eq hplain'.1 ?_
  cases h with
  | pathKey =>
      rw [key?_pathKey hpath] at hkey
      rw [key?_pathKey hpath', ← hkey] at hkey'
      exact (Option.some.inj hkey').symm
  | parameterized =>
      obtain ⟨parameters, hparameters, -⟩ := resolveParameterized_eq hkey hpath
      obtain ⟨parameters', hparameters', -⟩ := resolveParameterized_eq hkey' hpath'
      have hlist := toList_key hkey hpath hparameters
      rw [toList_key hkey' hpath' hparameters'] at hlist
      rcases append_keyTail_cases hlist with ⟨heq, -⟩ | ⟨rest, heq | heq⟩
      · exact (String.toList_inj.mp heq).symm
      · exact absurd (by simp [heq]) (Path.mark_notMem_key hplain'.2)
      · exact absurd (by simp [heq]) (Path.mark_notMem_key hplain.2)

end Builtin

end Scheme

/-- A candidate under one scheme is one under every other: its tokens come from the directive. -/
theorem Includer.exists_tokens_tail {plugin : Includer} {files : FileView} {scheme : Scheme}
    {directory : Path} {line : String} {resolution : Resolution}
    (h : resolution ∈ plugin.candidates files scheme directory line) :
    ∃ tokens reference, resolution = scheme.resolve tokens directory ∧
      plugin.directive? line = some reference ∧
      tokens.tail = (Reference.tokens reference).tail ∧
      ∀ other : Scheme,
        other.resolve tokens directory ∈ plugin.candidates files other directory line := by
  unfold candidates at h ⊢
  split at h
  · cases h
  · next reference hdirective =>
    split at h
    · cases h
    · next first others htokens =>
      split at h
      · next hpattern =>
        obtain ⟨path, hpath, rfl⟩ := List.mem_map.mp h
        refine ⟨_, reference, rfl, hdirective, by rw [htokens]; rfl, fun other => ?_⟩
        rw [if_pos hpattern]
        exact List.mem_map.mpr ⟨path, hpath, rfl⟩
      · next hpattern =>
        refine ⟨_, reference, List.mem_singleton.mp h, hdirective, by rw [htokens], fun other => ?_⟩
        rw [if_neg hpattern]
        exact List.mem_singleton_self _

/-- In all directives of all files, each token behind the first stands for something. -/
def Includer.ParametersStand (includer : Includer) (store : MemoryFiles) : Prop :=
  ∀ file ∈ store.toList, ∀ line ∈ Text.splitLines file.content,
    ∀ reference ∈ includer.directive? line,
      ∀ token ∈ (Reference.tokens reference).tail, (Text.unquote? token).isSome = true

instance (includer : Includer) (store : MemoryFiles) : Decidable (includer.ParametersStand store) :=
  inferInstanceAs (Decidable (∀ file ∈ store.toList, ∀ line ∈ Text.splitLines file.content,
    ∀ reference ∈ includer.directive? line,
      ∀ token ∈ (Reference.tokens reference).tail, (Text.unquote? token).isSome = true))

/-! ## Files that are reached -/

/-- The paths of the files that directives lead to from the inputs. -/
inductive Includer.Reaches (includer : Includer) (store : MemoryFiles) (cwd base : Path)
    (inputs : List String) : Path → Prop where
  | input (input : String) (path : Path) (file : MemoryFile) (hinput : input ∈ inputs)
      (hpath : ((Scheme.pathKey cwd).resolve [input] base).path? = some path)
      (hfile : store.get? path = some file) : Reaches includer store cwd base inputs path
  | directive (source path : Path) (file target : MemoryFile) (line : String)
      (resolution : Resolution) (hsource : Reaches includer store cwd base inputs source)
      (hfile : store.get? source = some file) (hline : line ∈ Text.splitLines file.content)
      (hresolution : resolution ∈
        includer.candidates store.view (.pathKey cwd) source.folder line)
      (hpath : resolution.path? = some path) (htarget : store.get? path = some target) :
      Reaches includer store cwd base inputs path

/-- The file that is found under a spelled path has this path. -/
theorem MemoryFiles.of_get?_ofList {files : List (Path × String)} {cwd path : Path}
    {file : MemoryFile} (hfiles : ∀ file ∈ files, file.1.IsPlain cwd ∧ '?' ∉ file.1.text.toList)
    (hspell : path = Path.spell path.components) (hget : (ofList files).get? path = some file) :
    file ∈ (ofList files).toList ∧ path.IsPlain cwd ∧ '?' ∉ path.text.toList := by
  obtain ⟨hcomponents, hplain, hmark⟩ :=
    held_ofList (p := fun path => path.IsPlain cwd ∧ '?' ∉ path.text.toList) hfiles hget
  have hpath : file.path = path := by
    rw [hplain.eq_spell, hcomponents, ← hspell]
  rw [← hpath]
  exact ⟨mem_toList.mpr ⟨_, hget⟩, hplain, hmark⟩

theorem Builtin.active_singleton {includer : Includer} (h : includer.phase = .onLoad) :
    active [.inl includer] .onLoad = [.inl includer] :=
  active_onLoad_eq h (by simp)

namespace Run.Course

open Builtin

variable {files : List (Path × String)} {job : Job} {plugins : List Builtin} {includer : Includer}
  {cwd : Path} {output : Output} {final : Session}
  (course : Course (MemoryFiles.ofList files).view job plugins (Session.start cwd) output final)
  (hscheme : Scheme.Builtin cwd (job.schemeFrom cwd))
  (hconfigured : plugins.mapM (setUp job.settings) = .ok [.inl includer])
  (hphase : includer.phase = .onLoad)

include course hscheme hconfigured hphase in
/-- What is put out is reached. -/
theorem reaches_of_emitted {emitted : EmittedScript} (hemitted : emitted ∈ output.scripts) :
    includer.Reaches (.ofList files) cwd job.baseDirectory job.inputs emitted.path := by
  have hgrows := seed_grows course.seed_eq course.opened_eq
  have hactive := active_singleton hphase
  have hentries := (course.ingested_induction hconfigured (MemoryFiles.view_readable _)
    (motive := fun _ sources _ => sources.scheme = job.schemeFrom cwd ∧
      ∀ entry ∈ sources.entries,
        (MemoryFiles.ofList files).view.readLines entry.script.path = .ok entry.script.rawLines ∧
          includer.Reaches (.ofList files) cwd job.baseDirectory job.inputs entry.script.path)
    ⟨hgrows.scheme, ?_⟩ ?_).2
  · rw [course.output_scripts] at hemitted
    obtain ⟨script, hscript, rfl⟩ := List.mem_map.mp hemitted
    obtain ⟨entry, hentry, rfl⟩ := List.mem_map.mp hscript
    have hperm := course.perm_final hconfigured (MemoryFiles.view_readable _)
    exact (hentries entry (hperm.mem_iff.mp hentry)).2
  · intro entry hentry
    obtain ⟨-, input, hinput, hloaded⟩ := mem_seeded course.seed_eq course.opened_eq hentry
    obtain ⟨file, hfile⟩ := MemoryFiles.isFile_view.mp hloaded.isFile
    exact ⟨hloaded.lines, .input input _ file hinput (hscheme.path?_pathKey hloaded.path) hfile⟩
  · rintro past sources loaded script ⟨hsources, hreached⟩ hnext
    refine ⟨by rw [scheme_turnSources, hsources], ?_⟩
    obtain ⟨hread, hreaches⟩ := hreached _ (Sources.nextReady?_eq_some hnext)
    refine forall_turnSources (fun script =>
      (MemoryFiles.ofList files).view.readLines script.path = .ok script.rawLines ∧
        includer.Reaches (.ofList files) cwd job.baseDirectory job.inputs script.path) ?_ hreached
    rw [phaseSources_eq hactive, hsources]
    refine Sources.takeAll_grows fun resolution hresolution target hloaded => ?_
    obtain ⟨line, hline, htarget⟩ := List.mem_flatMap.mp hresolution
    -- the tokens that lead to the target lead to the same file by its path
    obtain ⟨tokens, reference, rfl, -, -, hcandidate⟩ :=
      Includer.exists_tokens_tail (Includer.mem_candidates htarget)
    obtain ⟨source, hsource, hlines⟩ := MemoryFiles.readLines_view.mp hread
    obtain ⟨file, hfile⟩ := MemoryFiles.isFile_view.mp hloaded.isFile
    refine ⟨hloaded.lines, .directive script.path _ source file line _ hreaches hsource
      (hlines ▸ hline) (hcandidate _) (hscheme.path?_pathKey hloaded.path) hfile⟩

include course hscheme hconfigured hphase in
/-- What is reached is put out, perhaps under several keys. -/
theorem exists_emitted_of_reaches
    (hfiles : ∀ file ∈ files, file.1.IsPlain cwd ∧ '?' ∉ file.1.text.toList)
    (hstand : includer.ParametersStand (.ofList files)) {path : Path}
    (hreaches : includer.Reaches (.ofList files) cwd job.baseDirectory job.inputs path) :
    ∃ emitted ∈ output.scripts, emitted.path = path := by
  have hreadable := (MemoryFiles.ofList files).view_readable
  -- a script with the key of a reference to a file has the path of the file
  have hunique : ∀ (tokens : List String) (directory path : Path) (key : String)
      (file : MemoryFile),
      ((job.schemeFrom cwd).resolve tokens directory).key? = some key →
      ((job.schemeFrom cwd).resolve tokens directory).path? = some path →
      (MemoryFiles.ofList files).get? path = some file →
      (∃ emitted ∈ output.scripts, emitted.key = key) →
        ∃ emitted ∈ output.scripts, emitted.path = path := by
    rintro tokens directory path key file hkey hpath hfile ⟨emitted, hemitted, rfl⟩
    obtain ⟨tokens', directory', hkey', hpath', hisFile⟩ :=
      course.exists_reference hconfigured hreadable hemitted
    obtain ⟨file', hfile'⟩ := MemoryFiles.isFile_view.mp hisFile
    have hplain := MemoryFiles.of_get?_ofList hfiles (hscheme.path_eq_spell hkey hpath) hfile
    have hplain' := MemoryFiles.of_get?_ofList hfiles (hscheme.path_eq_spell hkey' hpath') hfile'
    exact ⟨emitted, hemitted, hscheme.path_unique hkey' hpath' hkey hpath hplain'.2 hplain.2⟩
  induction hreaches with
  | input input path file hinput hpath hfile =>
      have hnone : Scheme.parameters? [input].tail = some [] := rfl
      have hown := hscheme.path?_of_pathKey hnone hpath
      obtain ⟨key, hkey⟩ := hscheme.exists_key hown
      exact hunique _ _ _ key file hkey hown hfile
        (course.exists_emitted_of_input hconfigured hreadable hinput hkey)
  | directive source path file target line resolution hsource hfile hline hresolution hpath htarget
      ih =>
      obtain ⟨emitted, hemitted, rfl⟩ := ih
      obtain ⟨tokens, reference, rfl, hdirective, htail, hcandidate⟩ :=
        Includer.exists_tokens_tail hresolution
      obtain ⟨tokens', directory', hkey', hpath', -⟩ :=
        course.exists_reference hconfigured hreadable hemitted
      have hheld := MemoryFiles.of_get?_ofList hfiles (hscheme.path_eq_spell hkey' hpath') hfile
      have htokens := hstand file hheld.1 line hline reference hdirective
      rw [← htail] at htokens
      obtain ⟨parameters, hparameters⟩ := Scheme.exists_parameters htokens
      have hown := hscheme.path?_of_pathKey hparameters hpath
      obtain ⟨key, hkey⟩ := hscheme.exists_key hown
      have hactive := active_singleton hphase
      refine hunique _ _ _ key target hkey hown htarget ?_
      exact course.exists_emitted_of_directive hconfigured hreadable (by simp [hactive])
        (by simp [hactive]) hemitted (MemoryFiles.readLines_view.mpr ⟨file, hfile, rfl⟩) hline
        (hcandidate _) hkey hown (MemoryFiles.isFile_view.mpr ⟨target, htarget⟩)

include course hscheme hconfigured hphase in
/-- The files that are put out are those that are reached. -/
theorem exists_emitted_iff_reaches
    (hfiles : ∀ file ∈ files, file.1.IsPlain cwd ∧ '?' ∉ file.1.text.toList)
    (hstand : includer.ParametersStand (.ofList files)) {path : Path} :
    path ∈ output.scripts.map (·.path) ↔
      includer.Reaches (.ofList files) cwd job.baseDirectory job.inputs path := by
  rw [List.mem_map]
  constructor
  · rintro ⟨emitted, hemitted, rfl⟩
    exact course.reaches_of_emitted hscheme hconfigured hphase hemitted
  · exact course.exists_emitted_of_reaches hscheme hconfigured hphase hfiles hstand

end Run.Course

/-! ## Two runs -/

/-- The job under the scheme in which keys are made of paths. -/
def Job.byPath (job : Job) (cwd : Path) : Job :=
  { job with scheme? := some (.pathKey cwd) }

/-- The job under the scheme in which keys have parameters. -/
def Job.withParameters (job : Job) (cwd : Path) : Job :=
  { job with scheme? := some (.parameterized cwd) }

/-- An input has no parameters, so the two jobs have the same faults. -/
theorem Job.firstFault?_withParameters (job : Job) (store : MemoryFiles) (cwd : Path)
    (plugins : List Builtin) :
    (job.withParameters cwd).firstFault? store cwd plugins =
      (job.byPath cwd).firstFault? store cwd plugins := by
  have hplugins : (job.withParameters cwd).pluginFault? cwd =
      ((job.byPath cwd).pluginFault? cwd : Builtin → Option Error) := by
    funext plugin
    rw [Builtin.pluginFault?_eq, Builtin.pluginFault?_eq]
    rfl
  have hinputs : (job.withParameters cwd).inputFault? store cwd =
      (job.byPath cwd).inputFault? store cwd := by
    funext input
    have hnone : Scheme.parameters? [input].tail = some [] := rfl
    simp only [inputFault?, schemeFrom, withParameters, byPath, Option.getD_some,
      Scheme.path?_parameterized hnone]
  rw [firstFault?, firstFault?, hplugins, hinputs]
  rfl

/-- A run of the includer in the first phase, over files under plain paths without question marks in
which all parameters stand for something, with room for all scripts: under both schemes it fails
with the same error, or it puts out the same files, and the same lines for each of them. -/
theorem schemes_reach_same_files {files : List (Path × String)} {job : Job} {cwd : Path}
    {plugins : List Builtin} {limit : Nat}
    (hfiles : ∀ file ∈ files, file.1.IsPlain cwd ∧ '?' ∉ file.1.text.toList)
    (hchain : Builtin.chain ["inc"] = .ok plugins)
    (hsettings : ∀ includer, Builtin.setUp job.settings (.inl {}) = .ok (.inl includer) →
      includer.phase = .onLoad ∧ includer.ParametersStand (.ofList files))
    (hlimit : Command.processingBound job.inputs.length (MemoryFiles.ofList files).toList.length
      (MemoryFiles.ofList files).lineCount ≤ limit) :
    (∃ e final final',
      (job.byPath cwd).run (MemoryFiles.ofList files).view plugins limit (Session.start cwd) =
          .error e final ∧
        (job.withParameters cwd).run (MemoryFiles.ofList files).view plugins limit
          (Session.start cwd) = .error e final') ∨
    ∃ output output' final final',
      (job.byPath cwd).run (MemoryFiles.ofList files).view plugins limit (Session.start cwd) =
          .ok (some output) final ∧
        (job.withParameters cwd).run (MemoryFiles.ofList files).view plugins limit
          (Session.start cwd) = .ok (some output') final' ∧
        (∀ path, path ∈ output.scripts.map (·.path) ↔ path ∈ output'.scripts.map (·.path)) ∧
        ∀ emitted ∈ output.scripts, ∀ emitted' ∈ output'.scripts,
          emitted.path = emitted'.path → emitted.lines = emitted'.lines := by
  have hbyPath : ∀ scheme, (job.byPath cwd).scheme? = some scheme → Scheme.Builtin cwd scheme := by
    rintro scheme ⟨rfl⟩
    exact .pathKey
  have hwith : ∀ scheme, (job.withParameters cwd).scheme? = some scheme →
      Scheme.Builtin cwd scheme := by
    rintro scheme ⟨rfl⟩
    exact .parameterized
  obtain ⟨herror, houtput⟩ := error?_run hchain hbyPath hlimit
  obtain ⟨herror', houtput'⟩ := error?_run hchain hwith hlimit
  rw [job.firstFault?_withParameters] at herror' houtput'
  cases hfault : (job.byPath cwd).firstFault? (.ofList files) cwd plugins with
  | some e =>
      rw [hfault] at herror herror'
      obtain ⟨final, hfinal⟩ := error?_eq_some_iff.mp herror
      obtain ⟨final', hfinal'⟩ := error?_eq_some_iff.mp herror'
      exact .inl ⟨e, final, final', hfinal, hfinal'⟩
  | none =>
      obtain ⟨output, final, hrun⟩ := houtput hfault
      obtain ⟨output', final', hrun'⟩ := houtput' hfault
      refine .inr ⟨output, output', final, final', hrun, hrun', ?_, ?_⟩
      · obtain ⟨course, -⟩ := Course.of_run hrun
        obtain ⟨course', -⟩ := Course.of_run hrun'
        obtain rfl : [.inl {}] = plugins := Except.ok.inj hchain
        obtain ⟨configured, hconfigured⟩ := course.exists_setUp
        obtain ⟨ready, others, hready, hnil, rfl⟩ :=
          List.forall₂_cons_left_iff.mp (mapM_eq_ok_iff.mp hconfigured)
        obtain rfl := List.forall₂_nil_left_iff.mp hnil
        obtain ⟨includer, -, rfl⟩ := Builtin.setUp_includer_eq_ok hready
        obtain ⟨hphase, hstand⟩ := hsettings includer hready
        intro path
        rw [course.exists_emitted_iff_reaches .pathKey hconfigured hphase hfiles hstand,
          course'.exists_emitted_iff_reaches .parameterized hconfigured hphase hfiles hstand]
        rfl
      · obtain ⟨configured, hconfigured, hkept⟩ := exists_kept hrun
        obtain ⟨configured', hconfigured', hkept'⟩ := exists_kept hrun'
        obtain rfl : configured = configured' :=
          Except.ok.inj (hconfigured.symm.trans hconfigured')
        intro emitted hemitted emitted' hemitted' hpath
        obtain ⟨file, hfile, hlines⟩ := hkept emitted hemitted
        obtain ⟨file', hfile', hlines'⟩ := hkept' emitted' hemitted'
        rw [hpath, hfile'] at hfile
        rw [hlines, hlines', Option.some.inj hfile]

/-- A file that refers to another in two ways, and to all files with a parameter. -/
def variantFiles : List (Path × String) :=
  [(⟨"/m"⟩, "#include t A\n#include t \"B C\"\n#include * D\nmain\n"), (⟨"/t"⟩, "t\n")]

def variantOutput : Output :=
  ⟨[⟨"/m", ⟨"/m"⟩, ["main"]⟩, ⟨"/t", ⟨"/t"⟩, ["t"]⟩]⟩

def variantOutput' : Output :=
  ⟨[⟨"/m", ⟨"/m"⟩, ["main"]⟩, ⟨"/m?D", ⟨"/m"⟩, ["main"]⟩, ⟨"/t?A", ⟨"/t"⟩, ["t"]⟩,
    ⟨"/t?B C", ⟨"/t"⟩, ["t"]⟩, ⟨"/t?D", ⟨"/t"⟩, ["t"]⟩]⟩

set_option maxRecDepth 10000 in
theorem schemes_reach_same_files_variants :
    Includer.ParametersStand {} (.ofList variantFiles) ∧
      ∃ final final',
        (Job.byPath { inputs := ["/m"] } ⟨"/"⟩).run (MemoryFiles.ofList variantFiles).view
            [(.inl {} : Builtin)] 99 (Session.start ⟨"/"⟩) = .ok (some variantOutput) final ∧
          (Job.withParameters { inputs := ["/m"] } ⟨"/"⟩).run (MemoryFiles.ofList variantFiles).view
            [(.inl {} : Builtin)] 99 (Session.start ⟨"/"⟩) = .ok (some variantOutput') final' ∧
          (∀ path, path ∈ variantOutput.scripts.map (·.path) ↔
            path ∈ variantOutput'.scripts.map (·.path)) ∧
          ∀ emitted ∈ variantOutput.scripts, ∀ emitted' ∈ variantOutput'.scripts,
            emitted.path = emitted'.path → emitted.lines = emitted'.lines := by
  have hstand : Includer.ParametersStand {} (.ofList variantFiles) := by decide +kernel
  refine ⟨hstand, ?_⟩
  obtain ⟨final, hrun⟩ := exists_final
    (show output? ((Job.byPath { inputs := ["/m"] } ⟨"/"⟩).run
      (MemoryFiles.ofList variantFiles).view [(.inl {} : Builtin)] 99 (Session.start ⟨"/"⟩)) =
        some variantOutput by decide +kernel)
  obtain ⟨final', hrun'⟩ := exists_final
    (show output? ((Job.withParameters { inputs := ["/m"] } ⟨"/"⟩).run
      (MemoryFiles.ofList variantFiles).view [(.inl {} : Builtin)] 99 (Session.start ⟨"/"⟩)) =
        some variantOutput' by decide +kernel)
  have hfiles : ∀ file ∈ variantFiles,
      file.1.IsPlain ⟨"/"⟩ ∧ '?' ∉ file.1.text.toList := by
    intro file hfile
    simp only [variantFiles, List.mem_cons, List.not_mem_nil, or_false] at hfile
    rcases hfile with rfl | rfl
    · exact ⟨⟨by decide +kernel, by decide⟩, by decide⟩
    · exact ⟨⟨by decide +kernel, by decide⟩, by decide⟩
  have hchain : Builtin.chain ["inc"] = .ok [.inl {}] := rfl
  have hsettings : ∀ includer, Builtin.setUp .empty (.inl {}) = .ok (.inl includer) →
      includer.phase = .onLoad ∧ includer.ParametersStand (.ofList variantFiles) := by
    intro includer hincluder
    obtain rfl : ({} : Includer) = includer := Sum.inl.inj (Except.ok.inj hincluder)
    exact ⟨rfl, hstand⟩
  have hboth := @schemes_reach_same_files variantFiles { inputs := ["/m"] } ⟨"/"⟩ _ 99 hfiles hchain
    hsettings (by decide +kernel)
  rcases hboth with ⟨e, _, _, herror, -⟩ | ⟨output, output', _, _, hok, hok', hsame⟩
  · rw [hrun] at herror
    cases herror
  · rw [hrun] at hok
    rw [hrun'] at hok'
    cases hok
    cases hok'
    exact ⟨final, final', hrun, hrun', hsame⟩

end SourceWeave
