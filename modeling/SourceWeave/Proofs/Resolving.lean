import SourceWeave.Files.Memory
import SourceWeave.Script
import SourceWeave.Proofs.Spelling

/-!
# What references resolve to

The key and the path of a resolution, for both built-in schemes. Whatever the tokens and the
directory are, a built-in scheme resolves to a normal path, so the path of a script that is read
from files held in memory is the spelling of the components under which the file is held:
`Scheme.Builtin.path_eq_spell`.
-/

namespace SourceWeave

namespace Resolution

theorem value?_setValue (resolution : Resolution) (name value other : String) :
    (resolution.setValue name value).value? other =
      if name = other then some value else resolution.value? other := by
  simp only [value?, setValue]
  rw [Std.TreeMap.getElem?_insert]
  simp only [Std.compare_eq_iff_eq]

@[simp]
theorem key?_failed : failed.key? = none := rfl

@[simp]
theorem path?_failed : failed.path? = none := rfl

@[simp]
theorem key?_resolved (key : String) (path : Path) : (resolved key path).key? = some key := by
  show ((failed.setValue keyField key).setValue pathField path.text).value? keyField = some key
  rw [value?_setValue, if_neg (by decide), value?_setValue, if_pos rfl]

@[simp]
theorem path?_resolved (key : String) (path : Path) : (resolved key path).path? = some path := by
  show (((failed.setValue keyField key).setValue pathField path.text).value? pathField).map
    Path.mk = some path
  rw [value?_setValue, if_pos rfl, Option.map_some]

/-- Another key takes the place of the first. -/
theorem key?_setValue_key (key : String) (path : Path) (value : String) :
    ((resolved key path).setValue keyField value).key? = some value := by
  show ((resolved key path).setValue keyField value).value? keyField = some value
  rw [value?_setValue, if_pos rfl]

/-- Another key leaves the path alone. -/
theorem path?_setValue_key (resolution : Resolution) (value : String) :
    (resolution.setValue keyField value).path? = resolution.path? := by
  have hother : (resolution.setValue keyField value).value? pathField =
      resolution.value? pathField := by
    rw [value?_setValue, if_neg (by decide)]
  simp only [path?, hother]
  rfl

end Resolution

/-- A script is made exactly from a resolution with a key and a path. -/
theorem Script.ofResolution?_eq_some_iff {separator : String} {rawLines : List String}
    {resolution : Resolution} {script : Script} :
    Script.ofResolution? separator rawLines resolution = some script ↔
      resolution.key? = some script.key ∧ resolution.path? = some script.path ∧
        script.rawLines = rawLines ∧ script.resolution = resolution ∧
          script.separator = separator := by
  unfold Script.ofResolution?
  constructor
  · intro h
    split at h
    · next key path hkey hpath =>
      obtain rfl := Option.some.inj h
      exact ⟨hkey, hpath, rfl, rfl, rfl⟩
    · exact absurd h (by simp)
  · rintro ⟨hkey, hpath, rfl, rfl, rfl⟩
    rw [hkey, hpath]

namespace Scheme

/-- The resolution by paths gives a path exactly together with the key of this path. -/
theorem resolvePathKey_cases (cwd : Path) (tokens : List String) (directory : Path) :
    resolvePathKey cwd tokens directory = .failed ∨
      ∃ reference : String, resolvePathKey cwd tokens directory =
        .resolved ((directory.join ⟨reference⟩).normalize cwd).key
          ((directory.join ⟨reference⟩).normalize cwd) := by
  unfold resolvePathKey
  split
  · exact .inl rfl
  · next reference _ => exact .inr ⟨reference, rfl⟩

/-- The resolution with parameters fails or differs from the one by paths only in its key. -/
theorem resolveParameterized_cases (cwd : Path) (tokens : List String) (directory : Path) :
    (resolveParameterized cwd tokens directory).key? = none ∨
      (resolveParameterized cwd tokens directory).path? =
        (resolvePathKey cwd tokens directory).path? := by
  unfold resolveParameterized
  simp only
  split
  · next hkey => exact .inl hkey
  · split
    · exact .inl rfl
    · exact .inr rfl
    · exact .inr (Resolution.path?_setValue_key _ _)

/-- The two schemes that a run can be told to use. -/
inductive Builtin (cwd : Path) : Scheme → Prop where
  | pathKey : Builtin cwd (pathKey cwd)
  | parameterized : Builtin cwd (parameterized cwd)

/-- A built-in scheme that resolves a reference gives it a normal path. -/
theorem Builtin.exists_normalize {cwd : Path} {scheme : Scheme} (h : Builtin cwd scheme)
    {tokens : List String} {directory path : Path} {key : String}
    (hkey : (scheme.resolve tokens directory).key? = some key)
    (hpath : (scheme.resolve tokens directory).path? = some path) :
    ∃ reference : Path, path = reference.normalize cwd := by
  have hbase : (resolvePathKey cwd tokens directory).path? = some path := by
    cases h with
    | pathKey => exact hpath
    | parameterized =>
        rcases resolveParameterized_cases cwd tokens directory with hnone | hsame
        · exact absurd (hnone.symm.trans hkey) (by simp)
        · exact hsame.symm.trans hpath
  rcases resolvePathKey_cases cwd tokens directory with hfail | ⟨reference, hresolved⟩
  · rw [hfail] at hbase
    exact absurd hbase (by simp)
  · rw [hresolved, Resolution.path?_resolved] at hbase
    exact ⟨_, (Option.some.inj hbase).symm⟩

/-- A built-in scheme spells the path of what it resolves by the components of the path. -/
theorem Builtin.path_eq_spell {cwd : Path} {scheme : Scheme} (h : Builtin cwd scheme)
    {tokens : List String} {directory path : Path} {key : String}
    (hkey : (scheme.resolve tokens directory).key? = some key)
    (hpath : (scheme.resolve tokens directory).path? = some path) :
    path = Path.spell path.components := by
  obtain ⟨reference, rfl⟩ := h.exists_normalize hkey hpath
  exact Path.normalize_eq_spell reference cwd

end Scheme

/-! ## Files that can be read -/

/-- Every file that is there can be read. -/
def FileView.Readable (files : FileView) : Prop :=
  ∀ path, files.isFile path = true → ∃ lines, files.readLines path = .ok lines

namespace MemoryFiles

theorem isFile_view {store : MemoryFiles} {path : Path} :
    store.view.isFile path = true ↔ ∃ file, store.get? path = some file := by
  simp only [view]
  rw [Option.isSome_iff_exists]

/-- The lines of a file held in memory are those of its text. -/
theorem readLines_view {store : MemoryFiles} {path : Path} {lines : List String} :
    store.view.readLines path = .ok lines ↔
      ∃ file, store.get? path = some file ∧ lines = Text.splitLines file.content := by
  simp only [view, readLines]
  constructor
  · intro h
    split at h
    · next file hfile => exact ⟨file, hfile, (Except.ok.inj h).symm⟩
    · exact absurd h (by simp)
  · rintro ⟨file, hfile, rfl⟩
    rw [hfile]

/-- Files held in memory can be read. -/
theorem view_readable (store : MemoryFiles) : store.view.Readable := by
  intro path h
  obtain ⟨file, hfile⟩ := isFile_view.mp h
  exact ⟨_, readLines_view.mpr ⟨file, hfile, rfl⟩⟩

/-- A file is held under the components of a path under which it was put in. -/
theorem held_ofList {p : Path → Prop} {files : List (Path × String)} (h : ∀ file ∈ files, p file.1)
    {components : List Path.Component} {file : MemoryFile}
    (hfile : (ofList files).files[components]? = some file) :
    file.path.components = components ∧ p file.path := by
  have hfold : ∀ (files : List (Path × String)) (store : MemoryFiles),
      (∀ file ∈ files, p file.1) →
      (∀ (components : List Path.Component) (file : MemoryFile),
        store.files[components]? = some file → file.path.components = components ∧ p file.path) →
      ∀ (components : List Path.Component) (file : MemoryFile),
        (files.foldl (fun store file => store.insert file.1 file.2) store).files[components]? =
          some file → file.path.components = components ∧ p file.path := by
    intro files
    induction files with
    | nil => exact fun store _ hstore => hstore
    | cons new rest ih =>
        intro store hfiles hstore
        refine ih _ (fun other hother => hfiles other (by simp [hother])) ?_
        intro components file hfile
        simp only [MemoryFiles.insert] at hfile
        rw [Std.TreeMap.getElem?_insert] at hfile
        split at hfile
        · next hcomponents =>
          obtain rfl := Std.compare_eq_iff_eq.mp hcomponents
          obtain rfl := Option.some.inj hfile
          -- a file that was there keeps its spelling
          cases hold : store.get? new.1 with
          | none => exact ⟨rfl, hfiles new (by simp)⟩
          | some old => exact hstore new.1.components old hold
        · exact hstore components file hfile
  refine hfold files empty h ?_ components file hfile
  intro components file hfile
  simp [empty] at hfile

end MemoryFiles

end SourceWeave
