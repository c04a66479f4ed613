import SourceWeave.Proofs.Closure
import SourceWeave.Proofs.Encounters
import SourceWeave.Proofs.NormalForm

/-!
# Scripts as records of files

However a file is referred to, a built-in scheme resolves the reference to one normal path, and the
script that is made of it carries this path, the lines of the file and the key that belongs to the
path: `Script.RecordsFile`. The main statement is `run_tracks_file_records`: in every session that a
run of built-in plugins visits, all tracked scripts are such records, so where keys are made of
paths alone no path is put out twice.
-/

namespace SourceWeave

open Call Run

/-! ## Records -/

/-- The resolution with parameters puts the parameters behind the key of the path, if there are
any. -/
theorem Scheme.resolveParameterized_eq {cwd : Path} {tokens : List String} {directory path : Path}
    {key : String} (hkey : (resolveParameterized cwd tokens directory).key? = some key)
    (hpath : (resolveParameterized cwd tokens directory).path? = some path) :
    ∃ parameters, parameters? tokens.tail = some parameters ∧
      key = if parameters = [] then path.key else parameterizedKey path.key parameters := by
  unfold resolveParameterized at hkey hpath
  rcases resolvePathKey_cases cwd tokens directory with hfail | ⟨reference, hresolved⟩
  · simp [hfail] at hkey
  · simp only [hresolved, Resolution.key?_resolved] at hkey hpath
    cases hparameters : parameters? tokens.tail with
    | none => simp [hparameters] at hkey
    | some parameters =>
        simp only [hparameters] at hkey hpath
        refine ⟨parameters, rfl, ?_⟩
        cases parameters with
        | nil =>
            rw [Resolution.key?_resolved] at hkey
            rw [Resolution.path?_resolved] at hpath
            rw [if_pos rfl, ← Option.some.inj hkey, ← Option.some.inj hpath]
        | cons first others =>
            rw [Resolution.path?_setValue_key, Resolution.path?_resolved] at hpath
            rw [Resolution.key?_setValue_key] at hkey
            rw [if_neg (by simp), ← Option.some.inj hkey, ← Option.some.inj hpath]

/-- The script is the record of a file: it has the normal path of the file and its lines, and its
key is made of the path and, where the scheme has them, of the parameters of a reference. -/
structure Script.RecordsFile (script : Script) (store : MemoryFiles) (cwd : Path)
    (scheme : Scheme) : Prop where
  isAbsolute : script.path.isAbsolute = true
  ne_dots : ∀ piece ∈ Path.pieces script.path.text.toList, piece ≠ ['.'] ∧ piece ≠ ['.', '.']
  file : ∃ file, store.get? script.path = some file ∧ file.path = script.path ∧
    script.rawLines = Text.splitLines file.content
  key_of_pathKey : scheme = .pathKey cwd → script.key = script.path.key
  key_of_parameterized : scheme = .parameterized cwd → ∃ tokens directory parameters,
    script.resolution = scheme.resolve tokens directory ∧
      Scheme.parameters? tokens.tail = some parameters ∧
        script.key = if parameters = [] then script.path.key
          else Scheme.parameterizedKey script.path.key parameters

/-- What a built-in scheme leads to is the record of a file. -/
theorem Script.RecordsFile.of_loaded {files : List (Path × String)} {cwd directory : Path}
    {scheme : Scheme} {separator : String} {tokens : List String} {script : Script}
    (hfiles : ∀ file ∈ files, file.1.normalize cwd = file.1) (hcwd : cwd.isAbsolute = true)
    (hscheme : Scheme.Builtin cwd scheme)
    (h : script.LoadedFrom (MemoryFiles.ofList files).view separator
      (scheme.resolve tokens directory)) :
    script.RecordsFile (.ofList files) cwd scheme := by
  obtain ⟨reference, hnormal⟩ := hscheme.exists_normalize h.key h.path
  obtain ⟨file, hfile, hlines⟩ := MemoryFiles.readLines_view.mp h.lines
  obtain ⟨hcomponents, hfileNormal⟩ :=
    MemoryFiles.held_ofList (p := fun path => path.normalize cwd = path) hfiles hfile
  -- both paths are normal and have the same components
  have hpath : file.path = script.path := by
    rw [← hfileNormal, Path.normalize_eq_spell, hfileNormal, hcomponents, hnormal,
      ← Path.normalize_eq_spell]
  refine ⟨?_, ?_, ⟨file, hfile, hpath, hlines⟩, ?_, ?_⟩
  · rw [hnormal]
    exact Path.isAbsolute_normalize hcwd reference
  · rw [hnormal]
    exact fun piece hpiece => Path.ne_dots_of_mem_pieces_normalize hpiece
  · rintro rfl
    have hkey := h.key
    have hpath := h.path
    rcases Scheme.resolvePathKey_cases cwd tokens directory with hfail | ⟨written, hresolved⟩
    · simp [Scheme.pathKey, hfail] at hkey
    · simp only [Scheme.pathKey, hresolved, Resolution.key?_resolved, Resolution.path?_resolved,
        Option.some.injEq] at hkey hpath
      rw [← hkey, ← hpath]
  · rintro rfl
    obtain ⟨parameters, hparameters, hkey⟩ := Scheme.resolveParameterized_eq h.key h.path
    exact ⟨tokens, directory, parameters, h.resolution_eq, hparameters, hkey⟩

/-! ## Sessions of a run -/

/-- The state of the lock, the scheme of a run, and records of files under it. -/
structure Sources.HoldsRecords (store : MemoryFiles) (cwd : Path) (scheme : Scheme) (locked : Bool)
    (sources : Sources) : Prop where
  locked_eq : sources.locked = locked
  scheme_eq : sources.scheme = scheme
  records : ∀ script ∈ sources.scripts, script.RecordsFile store cwd scheme

/-- Holding records is a property of all tracked scripts. -/
theorem Sources.holdsRecords_eq (store : MemoryFiles) (cwd : Path) (scheme : Scheme) :
    HoldsRecords store cwd scheme = AllKnown (·.RecordsFile store cwd scheme) scheme := by
  funext locked sources
  exact propext ⟨fun h => ⟨h.locked_eq, h.scheme_eq, h.records⟩,
    fun h => ⟨h.locked_eq, h.scheme_eq, h.known⟩⟩

section

variable {files : List (Path × String)} {cwd : Path}

/-- Records of files are an invariant of a run of built-in plugins. -/
theorem Builtin.records_invariant (hfiles : ∀ file ∈ files, file.1.normalize cwd = file.1)
    (hcwd : cwd.isAbsolute = true) {job : Job}
    (hscheme : Scheme.Builtin cwd (job.schemeFrom cwd)) :
    Invariant Builtin (MemoryFiles.ofList files).view job (Session.start cwd)
      (Sources.HoldsRecords (.ofList files) cwd (job.schemeFrom cwd)) := by
  rw [Sources.holdsRecords_eq]
  exact allKnown_invariant (MemoryFiles.view_readable _) fun _ _ _ _ hloaded =>
    .of_loaded hfiles hcwd hscheme hloaded

variable {job : Job} {plugins : List Builtin} {limit : Nat}

/-- Each script that is tracked in a session of a run is the record of a file. -/
theorem Builtin.recordsFile_of_visits (hfiles : ∀ file ∈ files, file.1.normalize cwd = file.1)
    (hcwd : cwd.isAbsolute = true) (hscheme : Scheme.Builtin cwd (job.schemeFrom cwd))
    {moment : Moment} {session : Session}
    (hvisits : Visits (MemoryFiles.ofList files).view job plugins limit (Session.start cwd) moment
      session)
    {script : Script} (hscript : script ∈ session.sources.scripts) :
    script.RecordsFile (.ofList files) cwd (job.schemeFrom cwd) := by
  rcases (Builtin.records_invariant hfiles hcwd hscheme).liesBetween hvisits with
    ⟨-, rfl⟩ | ⟨calls, start, finish, hexplains, hsession, -, hfinish⟩
  · cases hscript
  · -- no call drops a script, so it is there behind the calls
    have hkept := mem_scripts_performAll hsession hscript
    rw [hexplains.performAll_eq] at hkept
    exact hfinish.records script hkept

/-- Scripts whose keys are those of their paths have different paths. -/
theorem Sources.nodup_paths {sources : Sources}
    (h : ∀ script ∈ sources.scripts, script.key = script.path.key) :
    (sources.scripts.map (·.path)).Nodup := by
  have hkeys : (sources.scripts.map (·.path)).map Path.key = sources.keys := by
    rw [Sources.keys_eq_map_scripts, List.map_map]
    exact List.map_congr_left fun script hscript => (h script hscript).symm
  refine List.Nodup.of_map Path.key ?_
  rw [hkeys]
  exact sources.keys_nodup

end

/-- In every session that a run of built-in plugins visits, each tracked script is the record of a
file. So no path is put out twice if keys are made of paths alone. -/
theorem run_tracks_file_records {files : List (Path × String)} {cwd : Path}
    (hfiles : ∀ file ∈ files, file.1.normalize cwd = file.1) (hcwd : cwd.isAbsolute = true)
    {job : Job} (hscheme : ∀ scheme, job.scheme? = some scheme → Scheme.Builtin cwd scheme)
    (plugins : List Builtin) (limit : Nat) :
    (∀ moment session,
      Visits (MemoryFiles.ofList files).view job plugins limit (Session.start cwd) moment session →
        ∀ script ∈ session.sources.scripts,
          script.RecordsFile (.ofList files) cwd (job.schemeFrom cwd)) ∧
    (job.schemeFrom cwd = .pathKey cwd → ∀ output final,
      job.run (MemoryFiles.ofList files).view plugins limit (Session.start cwd) =
        .ok (some output) final → (output.scripts.map (·.path)).Nodup) := by
  have hbuiltin := job.builtin_schemeFrom hscheme
  constructor
  · intro moment session hvisits script hscript
    exact Builtin.recordsFile_of_visits hfiles hcwd hbuiltin hvisits hscript
  · intro hpathKey output final hrun
    obtain ⟨course, -⟩ := Course.of_run hrun
    rw [course.output_scripts, List.map_map]
    refine Sources.nodup_paths fun script hscript => ?_
    have hrecord := Builtin.recordsFile_of_visits hfiles hcwd hbuiltin (.of_run hrun) hscript
    exact hrecord.key_of_pathKey hpathKey

/-- A file that refers to another in two ways, once with a parameter. -/
def repeatedReferences : List (Path × String) :=
  [(⟨"/d/a"⟩, "#include ./b\n#include \"../d/b\" x\n"), (⟨"/d/b"⟩, "b\n")]

/-- What is asked of the file, with some scheme. -/
def repeatedJob (scheme? : Option Scheme) : Job :=
  { inputs := ["d/a"], scheme? := scheme? }

set_option maxRecDepth 10000 in
theorem run_tracks_file_records_repeated :
    (∃ output final, (repeatedJob none).run (MemoryFiles.ofList repeatedReferences).view
        [(.inl {} : Builtin)] 9 (Session.start ⟨"/"⟩) = .ok (some output) final ∧
      output.order = ["/d/a", "/d/b"] ∧ (output.scripts.map (·.path)).Nodup) ∧
    ∃ output final, (repeatedJob (some (.parameterized ⟨"/"⟩))).run
        (MemoryFiles.ofList repeatedReferences).view [(.inl {} : Builtin)] 9 (Session.start ⟨"/"⟩) =
          .ok (some output) final ∧
      output.order = ["/d/a", "/d/b", "/d/b?x"] ∧
      ∀ script ∈ final.sources.scripts,
        script.RecordsFile (.ofList repeatedReferences) ⟨"/"⟩ (.parameterized ⟨"/"⟩) := by
  have hfiles : ∀ file ∈ repeatedReferences, file.1.normalize ⟨"/"⟩ = file.1 := by decide +kernel
  constructor
  · obtain ⟨final, hrun⟩ := exists_final (show output? ((repeatedJob none).run
      (MemoryFiles.ofList repeatedReferences).view [(.inl {} : Builtin)] 9 (Session.start ⟨"/"⟩)) =
        some ⟨[⟨"/d/a", ⟨"/d/a"⟩, []⟩, ⟨"/d/b", ⟨"/d/b"⟩, ["b"]⟩]⟩ by decide +kernel)
    have hrecords := @run_tracks_file_records _ ⟨"/"⟩ hfiles (by decide) (repeatedJob none) nofun
      [.inl {}] 9
    exact ⟨_, final, hrun, rfl, hrecords.2 rfl _ final hrun⟩
  · obtain ⟨final, hrun⟩ := exists_final (show output?
      ((repeatedJob (some (.parameterized ⟨"/"⟩))).run (MemoryFiles.ofList repeatedReferences).view
        [(.inl {} : Builtin)] 9 (Session.start ⟨"/"⟩)) =
        some ⟨[⟨"/d/a", ⟨"/d/a"⟩, []⟩, ⟨"/d/b", ⟨"/d/b"⟩, ["b"]⟩, ⟨"/d/b?x", ⟨"/d/b"⟩, ["b"]⟩]⟩ by
          decide +kernel)
    have hscheme : ∀ scheme, (repeatedJob (some (.parameterized ⟨"/"⟩))).scheme? = some scheme →
        Scheme.Builtin ⟨"/"⟩ scheme := by
      rintro scheme ⟨⟩
      exact .parameterized
    have hrecords := run_tracks_file_records hfiles (by decide) hscheme [.inl {}] 9
    exact ⟨_, final, hrun, rfl, hrecords.1 .closed final (.of_run hrun)⟩

end SourceWeave
